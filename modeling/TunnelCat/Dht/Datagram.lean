import TunnelCat.Dht.Wire

/-!
# Sealing and opening a datagram

`Wire.lean` has the datagrams of the DHT as values: a sealed packet is what the cipher makes of a
list, and opening one is a match on a list.  Here `Seal` and `Open` are what the source has: the
plaintext is a buffer that is allocated with its final length and filled in place, the length of the
padding is the low half of a random byte, and opening a packet takes index and slice expressions
that panic out of range.

Both are the functions of `Wire.lean` (`sealDatagram_eq`, `openDatagram_eq`).  The offset of the
body is computed twice, from the random byte and from the third byte of the plaintext, and
`datagram_exact` says that the two agree.  In the other direction the padding length of an authentic
plaintext may be any byte, whatever `Seal` would write; `Open` compares it with the length of the
plaintext before it cuts.  What it does not compare is the length of the plaintext with three: this
follows from the length of the packet, because the tag has a fixed length.
-/

set_option autoImplicit false

open Bytes

namespace TunnelCat

/-- **The cipher is correct for a plaintext**: what it seals it opens.  The package promises this
for plaintexts up to `maxPlaintext`, and does not seal longer ones. -/
def ChaCha20Poly1305.Inverts (A : ChaCha20Poly1305) (key nonce plain : Bytes) : Prop :=
  A.Open key nonce (A.Seal key nonce plain) = some plain

theorem ChaCha20Poly1305.inverts_of_length_le (A : ChaCha20Poly1305) (key : Key)
    {nonce plain : Bytes} (hnonce : nonce.length = nonceSize)
    (hplain : plain.length ≤ maxPlaintext) : A.Inverts key.1 nonce plain :=
  A.open_seal _ _ _ key.2 hnonce hplain

/-- What is opened is shorter by the tag. -/
def ChaCha20Poly1305.StripsTag (A : ChaCha20Poly1305) (key : Bytes) : Prop :=
  ∀ nonce ct plain, A.Open key nonce ct = some plain → ct.length = plain.length + overhead

theorem nullAead_stripsTag (key : Bytes) : nullAead.StripsTag key := by
  intro nonce ct plain h
  have hopen : (if ct.drop (ct.length - 16) = List.replicate 16 0 then
      some (ct.take (ct.length - 16)) else none) = some plain := h
  split at hopen
  · rename_i htag
    have hlen := congrArg List.length htag
    rw [List.length_drop, List.length_replicate] at hlen
    cases hopen
    rw [List.length_take, overhead]
    omega
  · cases hopen

namespace Dht

variable (A : ChaCha20Poly1305) (key : Key)

/-! ## Seal -/

/-- What `Seal` draws. -/
structure Draws where
  /-- `padByte`. -/
  padByte : UInt8
  /-- The bytes the padding is filled with, of which it takes as many as it needs. -/
  padFill : Vector UInt8 15
  /-- The nonce. -/
  nonce : Vector UInt8 12

/-- `padLen`. -/
def Draws.padLen (d : Draws) : ℕ := (d.padByte &&& 0x0F).toNat

/-- The plaintext of `Seal`: a buffer that is filled from the front. -/
def Draws.plain (d : Draws) (msgType ttl : UInt8) (body : Bytes) : Bytes :=
  let ttl := if ttl = 0 then maxTTL else ttl
  let plain := List.replicate (3 + d.padLen + body.length) 0
  let plain := copyAt plain 0 [msgType]
  let plain := copyAt plain 1 [ttl]
  let plain := copyAt plain 2 [UInt8.ofNat d.padLen]
  let plain := if d.padLen > 0 then copyAt plain 3 (d.padFill.toList.take d.padLen) else plain
  copyAt plain (3 + d.padLen) body

/-- The body of a datagram: nothing for `nil`, and otherwise what `json.Marshal` returns. -/
def marshalled (payload : Option (Except String Bytes)) : Except String Bytes :=
  match payload with
  | none => .ok []
  | some result => result

/-- `Seal`. -/
def sealDatagram (d : Draws) (msgType ttl : UInt8) (payload : Option (Except String Bytes)) :
    Outcome Bytes :=
  match marshalled payload with
  | .error err => .err ("dht-wire: marshal: " ++ err)
  | .ok body =>
    .ok (d.nonce.toList ++ A.Seal key.1 d.nonce.toList (d.plain msgType ttl body))

theorem Draws.padLen_lt (d : Draws) : d.padLen < 16 := by
  have h : d.padLen ≤ 15 := by
    rw [padLen, UInt8.toNat_and]
    exact Nat.and_le_right
  omega

/-- The padding that is drawn. -/
def Draws.pad (d : Draws) : {p : Bytes // p.length < 16} :=
  ⟨d.padFill.toList.take d.padLen, lt_of_le_of_lt (List.length_take_le ..) d.padLen_lt⟩

theorem Draws.length_pad (d : Draws) : d.pad.1.length = d.padLen := by
  have := d.padLen_lt
  refine List.length_take_of_le ?_
  rw [Vector.length_toList]
  omega

/-- The buffer is filled without a gap. -/
theorem Draws.plain_eq (d : Draws) (msgType ttl : UInt8) (body : Bytes) :
    d.plain msgType ttl body =
      [msgType, if ttl = 0 then maxTTL else ttl, UInt8.ofNat d.padLen] ++ d.pad.1 ++ body := by
  set ttl' := if ttl = 0 then maxTTL else ttl with httl
  have hhead : copyAt (copyAt (copyAt (List.replicate (3 + d.padLen + body.length) 0) 0 [msgType])
      1 [ttl']) 2 [UInt8.ofNat d.padLen] =
      [msgType, ttl', UInt8.ofNat d.padLen] ++ List.replicate (d.padLen + body.length) 0 := by
    rw [← List.nil_append (List.replicate _ _),
      copyAt_fill (i := 0) rfl (2 + d.padLen + body.length) (by rw [List.length_singleton]; omega),
      copyAt_fill (i := 1) rfl (1 + d.padLen + body.length) (by rw [List.length_singleton]; omega),
      copyAt_fill (i := 2) rfl (d.padLen + body.length) (by rw [List.length_singleton]; omega)]
    rfl
  have hpad : (if d.padLen > 0 then
        copyAt ([msgType, ttl', UInt8.ofNat d.padLen] ++
          List.replicate (d.padLen + body.length) 0) 3 (d.padFill.toList.take d.padLen)
      else [msgType, ttl', UInt8.ofNat d.padLen] ++ List.replicate (d.padLen + body.length) 0) =
      [msgType, ttl', UInt8.ofNat d.padLen] ++ d.pad.1 ++ List.replicate body.length 0 := by
    split
    · exact copyAt_fill rfl body.length (congrArg (· + body.length) d.length_pad.symm)
    · rename_i hnone
      have hzero : d.padLen = 0 := by omega
      have hnil : d.pad.1 = [] := by rw [← List.length_eq_zero_iff, d.length_pad, hzero]
      rw [hnil, hzero, List.append_nil, Nat.zero_add]
  rw [plain, ← httl, hhead, hpad,
    copyAt_fill (by rw [List.length_append, d.length_pad]; rfl) 0 (Nat.add_zero _).symm,
    List.replicate_zero, List.append_nil]

/-- `Seal` makes the packet of `Wire.lean`. -/
theorem sealDatagram_eq (d : Draws) (msgType ttl : UInt8) {payload : Option (Except String Bytes)}
    {body : Bytes} (h : marshalled payload = .ok body) :
    sealDatagram A key d msgType ttl payload =
      .ok (sealPacket A key d.nonce d.pad msgType ttl body) := by
  rw [sealDatagram, h, sealPacket, d.length_pad]
  dsimp only
  rw [d.plain_eq]
  rfl

/-! ## Open -/

/-- `Open`. -/
def openDatagram (pkt : Bytes) : Outcome (UInt8 × UInt8 × Bytes) :=
  let minLen := nonceSize + 3 + overhead
  if pkt.length < minLen then
    .err ("dht-wire: packet too short (" ++ toString pkt.length ++ " < " ++ toString minLen ++ ")")
  else
    (Outcome.slice pkt 0 nonceSize).bind fun nonce ↦
      (Outcome.slice pkt nonceSize pkt.length).bind fun ct ↦
        match A.Open key.1 nonce ct with
        | none => .err "dht-wire: auth failed: chacha20poly1305: message authentication failed"
        | some plain =>
          (Outcome.index plain 2).bind fun padLen ↦
            if 3 + padLen.toNat > plain.length then
              .err ("dht-wire: invalid pad_len " ++ toString padLen.toNat)
            else
              (Outcome.index plain 0).bind fun msgType ↦
                (Outcome.index plain 1).bind fun ttl ↦
                  (Outcome.slice plain (3 + padLen.toNat) plain.length).bind fun body ↦
                    .ok (msgType, ttl, body)

variable {A key}

/-- `Open` opens the packet as `Wire.lean` has it. -/
theorem openDatagram_eq (pkt : Bytes) : openDatagram A key pkt = openPacket A key pkt := by
  rw [openDatagram, openPacket]
  split
  · rfl
  rename_i hlen
  have hct : (pkt.drop nonceSize).take (pkt.length - nonceSize) = pkt.drop nonceSize :=
    List.take_of_length_le (by rw [List.length_drop])
  rw [Outcome.slice_of_le (Nat.zero_le _) (by omega), Outcome.ok_bind,
    Outcome.slice_of_le (by omega) le_rfl, Outcome.ok_bind, hct, List.drop_zero, Nat.sub_zero]
  rcases A.Open key.1 (pkt.take nonceSize) (pkt.drop nonceSize) with
    _ | (_ | ⟨msgType, _ | ⟨ttl, _ | ⟨padLen, rest⟩⟩⟩)
  · rfl
  · rfl
  · rfl
  · rfl
  · have hlength : (msgType :: ttl :: padLen :: rest).length = rest.length + 3 := rfl
    have hbody : (msgType :: ttl :: padLen :: rest).drop (3 + padLen.toNat) =
        rest.drop padLen.toNat := by
      rw [Nat.add_comm]
      rfl
    dsimp only [Outcome.index, List.getElem?_cons_succ, List.getElem?_cons_zero, Outcome.ok_bind]
    rw [hlength]
    split
    · rfl
    · rw [Outcome.slice_of_le (by omega) (by omega), hbody,
        List.take_of_length_le (by rw [List.length_drop]; omega), Outcome.ok_bind]

/-- What opening a packet comes to, if an authentic plaintext is shorter than its ciphertext by the
tag: it has three bytes to read, then. -/
theorem openDatagram_cases (htag : A.StripsTag key.1) (pkt : Bytes) :
    (∃ msg, openDatagram A key pkt = .err msg) ∨
      ∃ msgType ttl padLen rest,
        A.Open key.1 (pkt.take nonceSize) (pkt.drop nonceSize) =
          some (msgType :: ttl :: padLen :: rest) ∧
        padLen.toNat ≤ rest.length ∧
        openDatagram A key pkt = .ok (msgType, ttl, rest.drop padLen.toNat) := by
  rw [openDatagram_eq, openPacket]
  split
  · exact .inl ⟨_, rfl⟩
  rename_i hlen
  have hplain := htag (pkt.take nonceSize) (pkt.drop nonceSize)
  rw [List.length_drop] at hplain
  rcases hopen : A.Open key.1 (pkt.take nonceSize) (pkt.drop nonceSize) with
    _ | (_ | ⟨msgType, _ | ⟨ttl, _ | ⟨padLen, rest⟩⟩⟩)
  · exact .inl ⟨_, rfl⟩
  · have hzero := hplain [] hopen
    rw [List.length_nil] at hzero
    omega
  · have hone := hplain [msgType] hopen
    rw [List.length_singleton] at hone
    omega
  · have htwo := hplain [msgType, ttl] hopen
    rw [List.length_cons, List.length_singleton] at htwo
    omega
  · dsimp only
    split
    · exact .inl ⟨_, rfl⟩
    · exact .inr ⟨msgType, ttl, padLen, rest, rfl, by omega, rfl⟩

/-! ## The result -/

/-- **The codec of the datagrams is exact**, for a cipher that opens what it seals.  A datagram
comes back for every type, hop count and payload, whatever was drawn; and every byte string is an
error or gives what follows the padding in an authentic plaintext, where the length of the padding
is the third byte, whichever it is. -/
theorem datagram_exact (A : ChaCha20Poly1305) (key : Key) :
    (∀ (d : Draws) (msgType ttl : UInt8) (payload : Option (Except String Bytes)) (j : Bytes),
      marshalled payload = .ok j → A.Inverts key.1 d.nonce.toList (d.plain msgType ttl j) →
      ∃ pkt, sealDatagram A key d msgType ttl payload = .ok pkt ∧
        openDatagram A key pkt = .ok (msgType, if ttl = 0 then maxTTL else ttl, j)) ∧
    (A.StripsTag key.1 → ∀ pkt : Bytes,
      (∃ msg, openDatagram A key pkt = .err msg) ∨
        ∃ plain msgType ttl padLen,
          A.Open key.1 (pkt.take nonceSize) (pkt.drop nonceSize) = some plain ∧
          plain[0]? = some msgType ∧ plain[1]? = some ttl ∧ plain[2]? = some padLen ∧
          3 + padLen.toNat ≤ plain.length ∧
          openDatagram A key pkt = .ok (msgType, ttl, plain.drop (3 + padLen.toNat))) := by
  refine ⟨?_, ?_⟩
  · intro d msgType ttl payload j hj hinv
    refine ⟨_, sealDatagram_eq A key d msgType ttl hj, ?_⟩
    rw [ChaCha20Poly1305.Inverts, d.plain_eq, ← d.length_pad] at hinv
    rw [openDatagram_eq]
    exact openPacket_of_open A key d.nonce d.pad msgType ttl hinv
  · intro htag pkt
    rcases openDatagram_cases htag pkt with herr | ⟨msgType, ttl, padLen, rest, hplain, hle, hok⟩
    · exact .inl herr
    · refine .inr ⟨_, msgType, ttl, padLen, hplain, rfl, rfl, rfl, ?_, ?_⟩
      · rw [List.length_cons, List.length_cons, List.length_cons]
        omega
      · rw [hok, Nat.add_comm]
        rfl

/-- The draws for the example: a padding byte of ones, so fifteen bytes of padding. -/
def demoDraws : Draws := ⟨255, Vector.replicate 15 7, Vector.replicate 12 0⟩

/-- A datagram without a payload, with as much padding as there can be. -/
theorem datagram_exact_nil :
    nullAead.StripsTag zeroKey.1 ∧
    nullAead.Inverts zeroKey.1 demoDraws.nonce.toList (demoDraws.plain 1 0 []) ∧
    ∃ pkt, sealDatagram nullAead zeroKey demoDraws 1 0 none = .ok pkt ∧
      openDatagram nullAead zeroKey pkt = .ok (1, maxTTL, []) := by
  have hinv : nullAead.Inverts zeroKey.1 demoDraws.nonce.toList (demoDraws.plain 1 0 []) :=
    nullAead.inverts_of_length_le zeroKey (by decide) (by decide +kernel)
  exact ⟨nullAead_stripsTag _, hinv,
    (datagram_exact nullAead zeroKey).1 demoDraws 1 0 none [] rfl hinv⟩

end Dht
end TunnelCat
