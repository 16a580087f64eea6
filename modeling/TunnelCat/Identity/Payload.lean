import TunnelCat.Identity.NodeID
import TunnelCat.Lib.Text

/-!
# What a signed entry says

The text that is signed for a relay entry has four fields with bars between them: the name of the
node, its address, its country and the time.  Nothing is escaped, and whoever makes up another entry
may put bars into its address and its country.  The text is unambiguous all the same: an entry
without bars gives a text with three of them, and another entry with this text has none to spare.

So a signature that is good for one text only is good for one entry only, up to the signature field
itself (`payload_determines`).
-/

set_option autoImplicit false

open Bytes ByteText

namespace TunnelCat.Identity

open Dht

/-- The name of a node: 64 hexadecimal digits. -/
def IsNodeID (s : String) : Prop := s.length = 64 ∧ ∀ c ∈ s.toList, (fromHexChar c).isSome = true

/-- Everything but the signature is the same. -/
structure SameFields (e e' : RelayEntry) : Prop where
  /-- `NodeID`. -/
  nodeID : e.nodeID = e'.nodeID
  /-- `Addr`. -/
  addr : e.addr = e'.addr
  /-- `CountryCode`. -/
  countryCode : e.countryCode = e'.countryCode
  /-- `TS`. -/
  ts : e.ts = e'.ts

/-- The signature is accepted for no other text, whatever the key. -/
def Binds (L : SigLib) (sig : Bytes) (text : String) : Prop :=
  ∀ pub text', L.verify pub text' sig = true → text' = text

/-! ## The four fields -/

/-- The fields of the text that is signed. -/
def fields (e : RelayEntry) : List (List Char) :=
  [e.nodeID.toList, e.addr.toList, e.countryCode.toList, (toString e.ts.toInt).toList]

theorem toList_relayEntryPayload (e : RelayEntry) :
    (relayEntryPayload e).toList = ['|'].intercalate (fields e) := by
  simp [relayEntryPayload, fields, List.intercalate_cons_cons, List.intercalate_singleton]

theorem bar_notMem_of_isNodeID {s : String} (h : IsNodeID s) : '|' ∉ s.toList := by
  intro hbar
  have hdigit := h.2 '|' hbar
  rw [show fromHexChar '|' = none from rfl] at hdigit
  cases hdigit

/-- The name of a public key is one. -/
theorem isNodeID_hexEncode {pub : Bytes} (h : pub.length = 32) : IsNodeID (hexEncode pub) := by
  refine ⟨?_, fun c hc ↦ ?_⟩
  · rw [hexEncode, String.length_ofList, length_hexChars, h]
  · rw [hexEncode, String.toList_ofList] at hc
    obtain ⟨n, -, hn, -⟩ := fromHexChar_lower (hexChars_lower pub c hc)
    rw [hn, Option.isSome_some]

/-- A number is printed with digits. -/
theorem notMem_repr {c : Char} (hc : c.isDigit = false) (n : ℕ) : c ∉ n.repr.toList := by
  rw [Nat.toList_repr]
  intro hmem
  have hdigit := Nat.isDigit_of_mem_toDigits (by decide) le_rfl hmem
  rw [hc] at hdigit
  cases hdigit

/-- And with a sign, if it is negative, but without bars. -/
theorem bar_notMem_toString (i : ℤ) : '|' ∉ (toString i).toList := by
  rw [show toString i = i.repr from rfl, Int.repr_eq_if]
  split
  · exact notMem_repr rfl _
  · rw [String.toList_append, List.mem_append, not_or]
    exact ⟨by decide, notMem_repr rfl _⟩

theorem eq_of_repr_eq {m n : ℕ} (h : m.repr.toList = n.repr.toList) : m = n := by
  rw [Nat.toList_repr, Nat.toList_repr] at h
  rw [← Nat.ofDigitChars_ten_toDigits (n := m), h, Nat.ofDigitChars_ten_toDigits]

/-- Different numbers are printed differently. -/
theorem eq_of_toString_eq {i j : ℤ} (h : (toString i).toList = (toString j).toList) : i = j := by
  have hsign (m n : ℕ) : m.repr.toList ≠ ("-" ++ n.repr).toList := fun heq ↦ by
    refine notMem_repr (c := '-') rfl m ?_
    rw [heq, String.toList_append]
    exact List.mem_append_left _ (by decide)
  rw [show toString i = i.repr from rfl, show toString j = j.repr from rfl, Int.repr_eq_if,
    Int.repr_eq_if] at h
  split at h <;> split at h
  · have := eq_of_repr_eq h
    omega
  · exact absurd h (hsign _ _)
  · exact absurd h.symm (hsign _ _)
  · rw [String.toList_append, String.toList_append, List.append_cancel_left_eq] at h
    have := eq_of_repr_eq h
    omega

theorem sameFields_of_fields_eq {e e' : RelayEntry} (h : fields e = fields e') :
    SameFields e e' := by
  simp only [fields, List.cons.injEq, and_true] at h
  obtain ⟨hid, haddr, hcc, hts⟩ := h
  exact ⟨String.toList_inj.mp hid, String.toList_inj.mp haddr, String.toList_inj.mp hcc,
    Int64.toInt_inj.mp (eq_of_toString_eq hts)⟩

theorem sameFields_of_payload_eq {e e' : RelayEntry} (hid : IsNodeID e.nodeID)
    (haddr : '|' ∉ e.addr.toList) (hcc : '|' ∉ e.countryCode.toList)
    (h : relayEntryPayload e = relayEntryPayload e') : SameFields e e' := by
  refine sameFields_of_fields_eq (Text.eq_of_intercalate_eq (c := '|') nofun rfl ?_ ?_)
  · simp only [fields, List.forall_mem_cons]
    exact ⟨bar_notMem_of_isNodeID hid, haddr, hcc, bar_notMem_toString _, nofun⟩
  · rw [← toList_relayEntryPayload, ← toList_relayEntryPayload, h]

/-! ## The signature -/

/-- What `BuildSignedRelayEntry` returns: the fields it was given, and a signature of their text. -/
theorem buildSignedRelayEntry_eq_ok {L : KeyLib} {s : Node} {now : Int64}
    {nodeID addr countryCode : String} {e : RelayEntry}
    (h : buildSignedRelayEntry L s now nodeID addr countryCode = .ok e) :
    ∃ key, s.nodeKey = some key ∧ e = ⟨nodeID, addr, countryCode, now,
      L.base64Encode (L.sign key.priv (relayEntryPayload e))⟩ := by
  rw [buildSignedRelayEntry, signNodePayload.eq_def] at h
  split at h
  · cases h
  · rename_i key hkey
    split at h
    · cases h
    · rw [Outcome.ok_bind, Outcome.ok.injEq] at h
      subst h
      exact ⟨key, hkey, rfl⟩

/-- What an entry that passes was checked for. -/
theorem verify_of_verifyRelayEntry {L : SigLib} {e : RelayEntry} {sig : Bytes}
    (hsig : L.base64Decode e.sig = some sig) (h : verifyRelayEntry L e = .ok ()) :
    ∃ pub, L.verify pub (relayEntryPayload e) sig = true := by
  rw [verifyRelayEntry] at h
  split at h
  · cases h
  · split at h
    · cases h
    · rename_i pub _
      simp only [hsig] at h
      split at h
      · cases h
      · split at h
        · exact ⟨pub, ‹_›⟩
        · cases h

/-- **The signed text determines the entry**: an entry whose name is one and whose address and
country have no bars shares its text with no other entry, whatever that has for an address, a
country and a time.  So if the signature that `BuildSignedRelayEntry` makes for such an entry is
good for no other text, then every entry that passes with this signature is that entry. -/
theorem payload_determines (L : KeyLib) {e : RelayEntry} (hid : IsNodeID e.nodeID)
    (haddr : '|' ∉ e.addr.toList) (hcc : '|' ∉ e.countryCode.toList) :
    (∀ e', relayEntryPayload e = relayEntryPayload e' → SameFields e e') ∧
      ∀ s now nodeID addr countryCode,
        buildSignedRelayEntry L s now nodeID addr countryCode = .ok e →
        ∃ key, s.nodeKey = some key ∧
          (Binds L.toSigLib (L.sign key.priv (relayEntryPayload e)) (relayEntryPayload e) →
            ∀ e', L.base64Decode e'.sig = L.base64Decode e.sig →
              verifyRelayEntry L.toSigLib e' = .ok () → SameFields e e') := by
  refine ⟨fun e' ↦ sameFields_of_payload_eq hid haddr hcc, ?_⟩
  intro s now nodeID addr countryCode hbuild
  obtain ⟨key, hkey, he⟩ := buildSignedRelayEntry_eq_ok hbuild
  refine ⟨key, hkey, fun hbinds e' hsig hverify ↦ ?_⟩
  rw [he, L.base64Decode_encode] at hsig
  obtain ⟨pub, hpub⟩ := verify_of_verifyRelayEntry hsig hverify
  exact sameFields_of_payload_eq hid haddr hcc (hbinds pub _ hpub).symm

/-! ## An entry -/

/-- A name. -/
def demoName : String := hexEncode (demoKey 1).pub

/-- What is signed for the entry below. -/
def demoText : String := relayEntryPayload ⟨demoName, "203.0.113.7:4000", "DE", 1700000000, ""⟩

/-- What a signature has of the text. -/
def demoDigest (text : String) : Bytes := List.replicate 32 (if text = demoText then 1 else 0)

/-- A library in which a signature is the public key and one bit of the text. -/
def textLib : KeyLib where
  verify pub text sig := sig == pub ++ demoDigest text
  base64Decode := hexDecode
  hexError _ := ""
  decrypt := some
  sign priv text := priv.drop 32 ++ demoDigest text
  base64Encode := hexEncode
  IsKey priv := priv.length = 64
  length_of_isKey h := h
  length_sign h text := by rw [List.length_append, List.length_drop, h, demoDigest,
    List.length_replicate]
  verify_sign _ _ := beq_self_eq_true _
  base64Decode_encode := hexDecode_hexEncode

theorem binds_demo (priv : Bytes) :
    Binds textLib.toSigLib (textLib.sign priv demoText) demoText := by
  intro pub text h
  have happ : priv.drop 32 ++ demoDigest demoText = pub ++ demoDigest text := eq_of_beq h
  have hdigest := (List.append_inj' happ (by rw [demoDigest, demoDigest, List.length_replicate,
    List.length_replicate])).2
  by_contra hne
  rw [demoDigest, demoDigest, if_pos rfl, if_neg hne] at hdigest
  exact absurd hdigest (by decide)

/-- An entry signed for an address and a country, and what passes with its signature. -/
theorem payload_determines_demo :
    ∃ e : RelayEntry, buildSignedRelayEntry textLib ⟨⟨none, none⟩, some ⟨[], (demoKey 1).priv⟩⟩
        1700000000 demoName "203.0.113.7:4000" "DE" = .ok e ∧
      IsNodeID e.nodeID ∧ e.addr = "203.0.113.7:4000" ∧
      ∀ e', e'.sig = e.sig → verifyRelayEntry textLib.toSigLib e' = .ok () → SameFields e e' := by
  obtain ⟨e, hbuild⟩ : ∃ e, buildSignedRelayEntry textLib
      ⟨⟨none, none⟩, some ⟨[], (demoKey 1).priv⟩⟩ 1700000000 demoName "203.0.113.7:4000" "DE" =
        .ok e := ⟨_, rfl⟩
  obtain ⟨key, -, he⟩ := buildSignedRelayEntry_eq_ok hbuild
  have hid : IsNodeID e.nodeID := by rw [he]; exact isNodeID_hexEncode (demoKey 1).length_pub
  have haddr : '|' ∉ e.addr.toList := by
    rw [he]; exact (by decide : '|' ∉ "203.0.113.7:4000".toList)
  have hcc : '|' ∉ e.countryCode.toList := by rw [he]; exact (by decide : '|' ∉ "DE".toList)
  have htext : relayEntryPayload e = demoText := by rw [he]; rfl
  refine ⟨e, hbuild, hid, by rw [he], fun e' hsig hverify ↦ ?_⟩
  obtain ⟨key, -, hall⟩ := (payload_determines textLib hid haddr hcc).2 _ _ _ _ _ hbuild
  rw [htext] at hall
  exact hall (binds_demo _) e' (by rw [hsig]) hverify

end TunnelCat.Identity
