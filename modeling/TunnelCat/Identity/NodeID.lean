import TunnelCat.Dht.RelayStore
import TunnelCat.Lib.ByteText
import TunnelCat.Lib.Trace

/-!
# The identity of a node

A node keeps its identity in two files: `nodeid` has the public key in hexadecimal, `nodeid.key` the
encrypted private key.  `LoadOrGenNodeID` takes what it finds there if the one has 64 characters and
the other decrypts to 64 bytes; otherwise it makes a new pair of keys and writes the files, first
`nodeid`, then `nodeid.key`.  Nothing compares the two.

So there is a moment at which the new public key stands next to whatever was in `nodeid.key` before,
and if the write of the second file fails, or the process stops there, the next call takes the two
for a pair.  The node then signs with one key and publishes the other as its name.

`consistent_iff` says that this is all that can go wrong.  `Fits` says of the two files that what
would be taken for a pair is one; `Keeps` says of a call that does not finish that it leaves the new
name only next to a file which is not taken for a private key, or has the private key of this name;
and every call of a run returns the name of the key it has loaded exactly if the files fit in the
beginning and every call of the run keeps to this.  `mixed_pair` is the run in which one does not.

A call is given what its environment does: which of the files can be read, which keys are
generated, and how far the call comes.  `os.WriteFile` truncates the file when it opens it, so an
unfinished write leaves the file as it was or leaves a beginning of the new content.
-/

set_option autoImplicit false

open Bytes ByteText Trace

namespace TunnelCat.Identity

open Dht

/-- The library functions an identity rests on, and what is assumed of them. -/
structure KeyLib extends SigLib where
  /-- `nodeIDDecrypt`; every error is `none`. -/
  decrypt : Bytes → Option Bytes
  /-- `ed25519.Sign` of a private key and the UTF-8 bytes of a text. -/
  sign : Bytes → String → Bytes
  /-- `base64.RawURLEncoding.EncodeToString`. -/
  base64Encode : Bytes → String
  /-- A private key as `ed25519.GenerateKey` makes it: a seed and the public key it gives. -/
  IsKey : Bytes → Prop
  /-- A private key has `ed25519.PrivateKeySize` bytes. -/
  length_of_isKey : ∀ {priv}, IsKey priv → priv.length = 64
  /-- A signature has `ed25519.SignatureSize` bytes. -/
  length_sign : ∀ {priv}, priv.length = 64 → ∀ text, (sign priv text).length = 64
  /-- A signature is accepted under the public half of its key. -/
  verify_sign : ∀ {priv}, IsKey priv → ∀ text, verify (priv.drop 32) text (sign priv text) = true
  /-- Decoding inverts encoding. -/
  base64Decode_encode : ∀ bs, base64Decode (base64Encode bs) = some bs

variable (L : KeyLib)

/-- A pair of keys that `ed25519.GenerateKey` returns. -/
structure KeyPair where
  /-- `priv`. -/
  priv : Bytes
  /-- It is a private key. -/
  isKey : L.IsKey priv

/-- `pub`: the second half of the private key. -/
def KeyPair.pub {L : KeyLib} (k : KeyPair L) : Bytes := k.priv.drop 32

/-- What `nodeIDEncrypt` can return for the private key: something that decrypts to it. -/
structure Encrypted (k : KeyPair L) where
  /-- `encPriv`. -/
  bytes : Bytes
  /-- Decryption inverts encryption. -/
  decrypts : L.decrypt bytes = some k.priv

/-- The two files of an identity, `none` for one that is not there. -/
structure Dir where
  /-- What is in `nodeid`. -/
  nodeid : Option Bytes
  /-- What is in `nodeid.key`. -/
  key : Option Bytes
  deriving DecidableEq, Repr

/-- `nodeKey`. -/
structure NodeKey where
  /-- `nodeKey.pub`. -/
  pub : Bytes
  /-- `nodeKey.priv`. -/
  priv : Bytes
  deriving DecidableEq, Repr

/-- The directory, and the keys the process has loaded. -/
structure Node where
  /-- The directory. -/
  dir : Dir
  /-- `nodeKey`, if it has been set since the process was started. -/
  nodeKey : Option NodeKey
  deriving DecidableEq, Repr

/-! ## What is taken for a pair -/

/-- `id`, if it has `hex.EncodedLen(ed25519.PublicKeySize)` bytes. -/
def idOf (file : Option Bytes) : Option Bytes := (file.map trimSpace).filter (·.length = 64)

/-- `privBytes`, if it has `ed25519.PrivateKeySize` bytes. -/
def privOf (file : Option Bytes) : Option Bytes := (file.bind L.decrypt).filter (·.length = 64)

/-- The pair that `LoadOrGenNodeID` finds in the files. -/
def loaded (d : Dir) : Option (Bytes × Bytes) :=
  (idOf d.nodeid).bind fun id ↦ (privOf L d.key).map fun priv ↦ (id, priv)

/-- What is taken for a pair is one. -/
def Fits (d : Dir) : Prop :=
  ∀ id priv, loaded L d = some (id, priv) → unhex id = some (priv.drop 32)

/-! ## Making a new pair -/

/-- The places where a call that makes a new pair can end before its end. -/
inductive Stage where
  /-- In `ed25519.GenerateKey`. -/
  | generate
  /-- In `os.MkdirAll`. -/
  | mkdirAll
  /-- In the write of `nodeid`, which leaves `n` bytes, or leaves the file as it was. -/
  | writePub (k : KeyPair L) (n : Option ℕ)
  /-- In `nodeIDEncrypt`. -/
  | encrypt (k : KeyPair L)
  /-- In the write of `nodeid.key`. -/
  | writeKey (k : KeyPair L) (enc : Encrypted L k) (n : Option ℕ)

/-- How it ends. -/
inductive Regen where
  /-- A library call returns an error with this text. -/
  | fails (stage : Stage L) (e : String)
  /-- The process stops. -/
  | stops (stage : Stage L)
  /-- Both files are written. -/
  | done (k : KeyPair L) (enc : Encrypted L k)

/-- What the environment does in a call of `LoadOrGenNodeID`. -/
structure Call where
  /-- `nodeid` can be read, if it is there. -/
  readsPub : Bool
  /-- `nodeid.key` can be read, if it is there. -/
  readsKey : Bool
  /-- What happens if the files are not taken for a pair. -/
  regen : Regen L

variable {L}

/-- A file after a write that was not finished. -/
def written (old : Option Bytes) (new : Bytes) : Option ℕ → Option Bytes
  | none => old
  | some n => some (new.take n)

/-- The files when a call ends there. -/
def Dir.after (d : Dir) : Stage L → Dir
  | .generate | .mkdirAll => d
  | .writePub k n => { d with nodeid := written d.nodeid (hexText k.pub) n }
  | .encrypt k => { d with nodeid := some (hexText k.pub) }
  | .writeKey k enc n => ⟨some (hexText k.pub), written d.key enc.bytes n⟩

/-- The error that is returned there. -/
def Stage.error (e : String) : Stage L → String
  | .generate => "nodeid: generate: " ++ e
  | .mkdirAll => e
  | .writePub _ _ => "nodeid: write pubkey: " ++ e
  | .encrypt _ => "nodeid: encrypt privkey: " ++ e
  | .writeKey _ _ _ => "nodeid: write privkey: " ++ e

/-- The part of the directory that the call can read. -/
def Call.sees (c : Call L) (d : Dir) : Dir :=
  ⟨if c.readsPub then d.nodeid else none, if c.readsKey then d.key else none⟩

variable (L)

/-- `LoadOrGenNodeID`: what it returns, unless the process stops, and what it leaves. -/
def loadOrGenNodeID (c : Call L) (s : Node) : Option (Outcome Bytes) × Node :=
  match loaded L (c.sees s.dir) with
  | some (id, privBytes) =>
    (some (.ok id), { s with nodeKey := some ⟨decodedBefore id, privBytes⟩ })
  | none =>
    match c.regen with
    | .fails stage e => (some (.err (stage.error e)), { s with dir := s.dir.after stage })
    | .stops stage => (none, ⟨s.dir.after stage, none⟩)
    | .done k enc =>
      (some (.ok (hexText k.pub)), ⟨⟨some (hexText k.pub), some enc.bytes⟩, some ⟨k.pub, k.priv⟩⟩)

/-- `SignNodePayload`. -/
def signNodePayload (s : Node) (payload : String) : Outcome Bytes :=
  match s.nodeKey with
  | none => .err "nodeid: key not loaded; call LoadOrGenNodeID first"
  | some key => if key.priv.length ≠ 64 then .panic else .ok (L.sign key.priv payload)

/-- `BuildSignedRelayEntry` at the clock reading `now`. -/
def buildSignedRelayEntry (s : Node) (now : Int64) (nodeID addr countryCode : String) :
    Outcome RelayEntry :=
  let entry : RelayEntry := ⟨nodeID, addr, countryCode, now, ""⟩
  (signNodePayload L s (relayEntryPayload entry)).bind fun sig ↦
    .ok { entry with sig := L.base64Encode sig }

/-- What can happen. -/
inductive Event where
  /-- `LoadOrGenNodeID` is called. -/
  | load (c : Call L)
  /-- The process is started again. -/
  | restart

/-- One step. -/
def step (s : Node) : Event L → Option Node
  | .load c => some (loadOrGenNodeID L c s).2
  | .restart => some { s with nodeKey := none }

/-- The keys are those of the name. -/
def NodeKey.Matches (key : NodeKey) (id : Bytes) : Prop :=
  unhex id = some (key.priv.drop 32) ∧ key.pub = key.priv.drop 32

instance (key : NodeKey) (id : Bytes) : Decidable (key.Matches id) :=
  inferInstanceAs (Decidable (_ ∧ _))

/-- The file is not taken for a private key, or it has the private key of this public key. -/
def KeyFits (file : Option Bytes) (pub : Bytes) : Prop :=
  ∀ priv, privOf L file = some priv → priv.drop 32 = pub

variable {L}

/-- The new name is left only next to a file that goes with it. -/
def Stage.Spares (d : Dir) : Stage L → Prop
  | .generate | .mkdirAll | .writePub _ none => True
  | .writePub k (some n) => n < 64 ∨ KeyFits L d.key k.pub
  | .encrypt k => KeyFits L d.key k.pub
  | .writeKey k enc n => KeyFits L (written d.key enc.bytes n) k.pub

/-- How the call ends leaves files that fit. -/
def Regen.Spares (d : Dir) : Regen L → Prop
  | .fails stage _ | .stops stage => stage.Spares d
  | .done _ _ => True

variable (L)

/-- A call that makes a new pair leaves files that fit. -/
def Keeps (s : Node) : Event L → Prop
  | .load c => loaded L (c.sees s.dir) = none → c.regen.Spares s.dir
  | .restart => True

variable {L} {s : Node} {d : Dir}

/-! ## The files after a call -/

theorem KeyPair.length_priv (k : KeyPair L) : k.priv.length = 64 := L.length_of_isKey k.isKey

theorem KeyPair.length_pub (k : KeyPair L) : k.pub.length = 32 := by
  rw [KeyPair.pub, List.length_drop, k.length_priv]

theorem KeyPair.length_hexText_pub (k : KeyPair L) : (hexText k.pub).length = 64 := by
  rw [length_hexText, k.length_pub]

theorem idOf_hexText (k : KeyPair L) : idOf (some (hexText k.pub)) = some (hexText k.pub) := by
  rw [idOf, Option.map_some, trimSpace_hexText, Option.filter_some, if_pos]
  exact decide_eq_true k.length_hexText_pub

/-- A beginning of a name is not taken for one. -/
theorem idOf_take {n : ℕ} (hn : n < 64) (t : Bytes) : idOf (some (t.take n)) = none := by
  rw [idOf, Option.map_some, Option.filter_some, if_neg]
  have hle := (length_trimSpace_le (t.take n)).trans (List.length_take_le n t)
  rw [decide_eq_true_eq]
  omega

theorem privOf_encrypted {k : KeyPair L} (enc : Encrypted L k) :
    privOf L (some enc.bytes) = some k.priv := by
  rw [privOf, Option.bind_some, enc.decrypts, Option.filter_some, if_pos]
  exact decide_eq_true k.length_priv

theorem loaded_eq_some_iff {id priv : Bytes} :
    loaded L d = some (id, priv) ↔ idOf d.nodeid = some id ∧ privOf L d.key = some priv := by
  simp only [loaded, Option.bind_eq_some_iff, Option.map_eq_some_iff, Prod.mk.injEq]
  refine ⟨?_, ?_⟩
  · rintro ⟨id', hid, priv', hpriv, rfl, rfl⟩
    exact ⟨hid, hpriv⟩
  · rintro ⟨hid, hpriv⟩
    exact ⟨id, hid, priv, hpriv, rfl, rfl⟩

/-- What can be read is there. -/
theorem loaded_of_sees {c : Call L} {p : Bytes × Bytes} (h : loaded L (c.sees d) = some p) :
    loaded L d = some p := by
  obtain ⟨id, priv⟩ := p
  obtain ⟨hid, hpriv⟩ := loaded_eq_some_iff.mp h
  simp only [Call.sees] at hid hpriv
  refine loaded_eq_some_iff.mpr ⟨?_, ?_⟩
  · split at hid
    · exact hid
    · exact absurd hid (Option.some_ne_none id).symm
  · split at hpriv
    · exact hpriv
    · exact absurd hpriv (Option.some_ne_none priv).symm

/-- A name next to a file fits exactly if the file goes with it. -/
theorem fits_hexText_iff (k : KeyPair L) (file : Option Bytes) :
    Fits L ⟨some (hexText k.pub), file⟩ ↔ KeyFits L file k.pub := by
  refine ⟨fun h priv hpriv ↦ ?_, fun h id priv hl ↦ ?_⟩
  · have := h _ _ (loaded_eq_some_iff.mpr ⟨idOf_hexText k, hpriv⟩)
    rw [unhex_hexText, Option.some_inj] at this
    exact this.symm
  · obtain ⟨hid, hpriv⟩ := loaded_eq_some_iff.mp hl
    rw [idOf_hexText, Option.some_inj] at hid
    rw [← hid, unhex_hexText, h priv hpriv]

theorem fits_of_idOf_eq_none (h : idOf d.nodeid = none) : Fits L d := by
  intro id priv hl
  have hid := (loaded_eq_some_iff.mp hl).1
  rw [h] at hid
  exact absurd hid (Option.some_ne_none id).symm

/-- The files fit after a call that was not finished, exactly if it spared them. -/
theorem fits_after_iff (hd : Fits L d) (stage : Stage L) :
    Fits L (d.after stage) ↔ stage.Spares d := by
  cases stage with
  | generate => exact iff_of_true hd trivial
  | mkdirAll => exact iff_of_true hd trivial
  | encrypt k => exact fits_hexText_iff k d.key
  | writeKey k enc n => exact fits_hexText_iff k _
  | writePub k n =>
    cases n with
    | none => exact iff_of_true hd trivial
    | some n =>
      rw [Dir.after, written, Stage.Spares]
      rcases Nat.lt_or_ge n 64 with hn | hn
      · exact iff_of_true (fits_of_idOf_eq_none (idOf_take hn _)) (.inl hn)
      · rw [List.take_of_length_le (by rw [k.length_hexText_pub]; exact hn), fits_hexText_iff]
        exact (or_iff_right (Nat.not_lt.mpr hn)).symm

theorem fits_done (k : KeyPair L) (enc : Encrypted L k) :
    Fits L ⟨some (hexText k.pub), some enc.bytes⟩ := by
  refine (fits_hexText_iff k _).mpr fun priv hpriv ↦ ?_
  rw [privOf_encrypted, Option.some_inj] at hpriv
  rw [← hpriv, KeyPair.pub]

/-- **One step**: the files fit after it exactly if it keeps to the condition. -/
theorem fits_step_iff (hd : Fits L s.dir) {e : Event L} {t : Node} (h : step L s e = some t) :
    Fits L t.dir ↔ Keeps L s e := by
  cases e with
  | restart =>
    rw [step, Option.some_inj] at h
    exact h ▸ iff_of_true hd trivial
  | load c =>
    rw [step, Option.some_inj, loadOrGenNodeID] at h
    rw [Keeps]
    cases hl : loaded L (c.sees s.dir) with
    | some p =>
      rw [hl] at h
      exact h ▸ iff_of_true hd fun hn ↦ absurd hn (Option.some_ne_none p)
    | none =>
      rw [hl] at h
      refine Iff.trans ?_ (forall_prop_of_true rfl).symm
      cases hr : c.regen with
      | fails stage e => rw [hr] at h; exact h ▸ fits_after_iff hd stage
      | stops stage => rw [hr] at h; exact h ▸ fits_after_iff hd stage
      | done k enc => rw [hr] at h; exact h ▸ iff_of_true (fits_done k enc) trivial

/-! ## What a call returns -/

/-- A name that is returned is either found in the files or has just been written. -/
theorem loadOrGenNodeID_ok {c : Call L} {id : Bytes} {t : Node}
    (h : loadOrGenNodeID L c s = (some (.ok id), t)) :
    (∃ priv, loaded L (c.sees s.dir) = some (id, priv) ∧
        t.nodeKey = some ⟨decodedBefore id, priv⟩) ∨
      ∃ k : KeyPair L, id = hexText k.pub ∧ t.nodeKey = some ⟨k.pub, k.priv⟩ := by
  rw [loadOrGenNodeID] at h
  split at h
  · rename_i id' priv hl
    simp only [Prod.mk.injEq, Option.some_inj, Outcome.ok.injEq] at h
    obtain ⟨rfl, rfl⟩ := h
    exact .inl ⟨priv, hl, rfl⟩
  · split at h
    · simp at h
    · simp at h
    · rename_i k enc _
      simp only [Prod.mk.injEq, Option.some_inj, Outcome.ok.injEq] at h
      obtain ⟨rfl, rfl⟩ := h
      exact .inr ⟨k, rfl, rfl⟩

/-- Every call in this state that returns a name has loaded its keys. -/
def Sound (L : KeyLib) (s : Node) : Prop :=
  ∀ c id t, loadOrGenNodeID L c s = (some (.ok id), t) →
    ∃ key, t.nodeKey = some key ∧ key.Matches id

theorem sound_iff_fits : Sound L s ↔ Fits L s.dir := by
  refine ⟨fun h id priv hl ↦ ?_, fun h c id t hc ↦ ?_⟩
  · have hcall : loadOrGenNodeID L ⟨true, true, .stops .generate⟩ s =
        (some (.ok id), { s with nodeKey := some ⟨decodedBefore id, priv⟩ }) := by
      rw [loadOrGenNodeID, show Call.sees _ s.dir = s.dir from rfl, hl]
    obtain ⟨key, hkey, hmatch⟩ := h _ _ _ hcall
    rw [Option.some_inj] at hkey
    subst hkey
    exact hmatch.1
  · rcases loadOrGenNodeID_ok hc with ⟨priv, hl, hkey⟩ | ⟨k, rfl, hkey⟩
    · have hid := h id priv (loaded_of_sees hl)
      exact ⟨_, hkey, hid, decodedBefore_eq hid⟩
    · exact ⟨_, hkey, unhex_hexText k.pub, rfl⟩

/-! ## Entries -/

/-- What `VerifyRelayEntry` makes of an entry: it checks the signature under the name. -/
theorem verifyRelayEntry_build {key : NodeKey} {id pub : Bytes} (hid : unhex id = some pub)
    (hlen : id.length = 64) (hpriv : key.priv.length = 64) (d : Dir) (now : Int64)
    (addr countryCode : String) :
    ∃ entry, buildSignedRelayEntry L ⟨d, some key⟩ now (string id) addr countryCode = .ok entry ∧
      verifyRelayEntry L.toSigLib entry =
        if L.verify pub (relayEntryPayload entry) (L.sign key.priv (relayEntryPayload entry)) then
          .ok ()
        else .err "dht: signature verification failed" := by
  let entry : RelayEntry := ⟨string id, addr, countryCode, now, ""⟩
  let text := relayEntryPayload entry
  refine ⟨{ entry with sig := L.base64Encode (L.sign key.priv text) }, ?_, ?_⟩
  · rw [buildSignedRelayEntry, signNodePayload]
    simp only [if_neg (not_not.mpr hpriv), Outcome.ok_bind]
    rfl
  · have hsize : (string id).utf8ByteSize = 64 := (utf8ByteSize_string hid).trans hlen
    have hsig : ¬(L.sign key.priv text).length ≠ 64 := not_not.mpr (L.length_sign hpriv text)
    rw [verifyRelayEntry, if_neg (not_not.mpr hsize)]
    simp only [entry, hexDecode_string, hid, L.base64Decode_encode, if_neg hsig]
    rfl

/-- Nothing in the environment keeps a call from being made. -/
theorem exists_exec (s : Node) (es : List (Event L)) : ∃ t, exec (step L) s es = some t := by
  induction es generalizing s with
  | nil => exact ⟨s, rfl⟩
  | cons e es ih =>
    obtain ⟨u, hu⟩ : ∃ u, step L s e = some u := by
      cases e with
      | load c => exact ⟨_, rfl⟩
      | restart => exact ⟨_, rfl⟩
    obtain ⟨t, ht⟩ := ih u
    exact ⟨t, exec_cons_eq_some.mpr ⟨u, hu, ht⟩⟩

/-- **A run**: the files fit at every point of it exactly if every step keeps to the condition. -/
theorem fits_along_iff (hs : Fits L s.dir) (es : List (Event L)) :
    (∀ pre post u, es = pre ++ post → exec (step L) s pre = some u → Fits L u.dir) ↔
      Along (step L) (Keeps L) s es := by
  obtain ⟨t, ht⟩ := exists_exec s es
  have hiff : ∀ {s : Node} {e : Event L} {t}, Fits L s.dir → True → step L s e = some t →
      ((∀ u, step L s e = some u → Fits L u.dir) ↔ Keeps L s e) := by
    intro s e t hd _ he
    refine ⟨fun h ↦ (fits_step_iff hd he).mp (h t he), fun h u hu ↦ ?_⟩
    exact (fits_step_iff hd hu).mpr h
  refine (forall_states_iff_along (P := fun u : Node ↦ Fits L u.dir) hs).trans ?_
  exact along_iff_along (P := fun u : Node ↦ Fits L u.dir) hiff (fun _ hc he ↦ hc _ he) hs
    (fun _ _ ↦ trivial) ht

/-- **Every call returns the name of the keys it has loaded**, at whatever point of a run it is
made, exactly if the files fit in the beginning and no call of the run leaves files that do not.
An entry signed with keys that go with the name is accepted under it. -/
theorem consistent_iff (s : Node) (es : List (Event L)) :
    ((∀ pre post u, es = pre ++ post → exec (step L) s pre = some u →
        ∀ c id t, loadOrGenNodeID L c u = (some (.ok id), t) →
          ∃ key, t.nodeKey = some key ∧ key.Matches id) ↔
      Fits L s.dir ∧ Along (step L) (Keeps L) s es) ∧
    ∀ d id key, NodeKey.Matches key id → L.IsKey key.priv → ∀ now addr countryCode, ∃ entry,
      buildSignedRelayEntry L ⟨d, some key⟩ now (string id) addr countryCode = .ok entry ∧
        verifyRelayEntry L.toSigLib entry = .ok () := by
  refine ⟨⟨fun h ↦ ?_, fun ⟨hs, hkeeps⟩ pre post u hsplit hu ↦ ?_⟩, ?_⟩
  · have hfits : ∀ pre post u, es = pre ++ post → exec (step L) s pre = some u →
        Fits L u.dir := fun pre post u hsplit hu ↦ sound_iff_fits.mp (h pre post u hsplit hu)
    have hs : Fits L s.dir := hfits [] es s rfl rfl
    exact ⟨hs, (fits_along_iff hs es).mp hfits⟩
  · exact sound_iff_fits.mpr ((fits_along_iff hs es).mpr hkeeps pre post u hsplit hu)
  · intro d id key hmatch hkey now addr countryCode
    have hpriv := L.length_of_isKey hkey
    have hlen : id.length = 64 := by
      rw [length_of_unhex hmatch.1, List.length_drop, hpriv]
    obtain ⟨entry, hbuild, hverify⟩ :=
      verifyRelayEntry_build hmatch.1 hlen hpriv d now addr countryCode
    refine ⟨entry, hbuild, ?_⟩
    rw [hverify, if_pos (L.verify_sign hkey _)]

/-! ## A pair that is none -/

/-- A library in which the signature of every text is the public key, twice. -/
def demoLib : KeyLib where
  verify pub _ sig := sig == pub ++ pub
  base64Decode := hexDecode
  hexError _ := ""
  decrypt := some
  sign priv _ := priv.drop 32 ++ priv.drop 32
  base64Encode := hexEncode
  IsKey priv := priv.length = 64
  length_of_isKey h := h
  length_sign h _ := by rw [List.length_append, List.length_drop, h]
  verify_sign _ _ := beq_self_eq_true _
  base64Decode_encode := hexDecode_hexEncode

/-- A pair of keys. -/
def demoKey (b : UInt8) : KeyPair demoLib := ⟨List.replicate 64 b, List.length_replicate⟩

/-- The private key is stored as it is. -/
def demoEncrypted (b : UInt8) : Encrypted demoLib (demoKey b) := ⟨(demoKey b).priv, rfl⟩

/-- A directory with an identity of the old format, from which a new one is made: the process stops
while it writes `nodeid`, and is started again. -/
def demoRun : List (Event demoLib) :=
  [.load ⟨true, true, .stops (.writePub (demoKey 1) (some 10))⟩, .restart,
    .load ⟨true, true, .done (demoKey 2) (demoEncrypted 2)⟩]

/-- The run ends with a name, and every call in it returns the name of its keys. -/
theorem consistent_iff_demo :
    (exec (step demoLib) ⟨⟨some (List.replicate 32 0x61), none⟩, none⟩ demoRun).bind Node.nodeKey =
        some ⟨(demoKey 2).pub, (demoKey 2).priv⟩ ∧
      ∀ pre post u, demoRun = pre ++ post →
        exec (step demoLib) ⟨⟨some (List.replicate 32 0x61), none⟩, none⟩ pre = some u →
        ∀ c id t, loadOrGenNodeID demoLib c u = (some (.ok id), t) →
          ∃ key, t.nodeKey = some key ∧ key.Matches id := by
  refine ⟨by decide, (consistent_iff _ demoRun).1.mpr ⟨fits_of_idOf_eq_none (by decide), ?_⟩⟩
  exact ⟨fun _ ↦ .inl (by decide), fun _ _ ↦ ⟨trivial, fun _ _ ↦ ⟨fun _ ↦ trivial,
    fun _ _ ↦ trivial⟩⟩⟩

/-- `nodeid` is lost, and the process stops between the two writes of a new pair. -/
def demoStop : Event demoLib :=
  .load ⟨true, true, .stops (.writeKey (demoKey 2) (demoEncrypted 2) none)⟩

/-- **The new name with the old key**: `nodeid` is missing, `nodeid.key` has a key, and the process
stops after it has written a new `nodeid`.  The next call returns the new name and loads the old
key, and no entry it signs is accepted. -/
theorem mixed_pair :
    ∃ s u : Node, s.dir = ⟨none, some (demoKey 1).priv⟩ ∧
      exec (step demoLib) s [demoStop, .restart] = some u ∧
      ∃ c id t, loadOrGenNodeID demoLib c u = (some (.ok id), t) ∧
        t.nodeKey = some ⟨(demoKey 2).pub, (demoKey 1).priv⟩ ∧
        (∀ key, t.nodeKey = some key → ¬key.Matches id) ∧
        ∀ now addr countryCode, ∃ entry,
          buildSignedRelayEntry demoLib t now (string id) addr countryCode = .ok entry ∧
          verifyRelayEntry demoLib.toSigLib entry = .err "dht: signature verification failed" := by
  let name := hexText (demoKey 2).pub
  let files : Dir := ⟨some name, some (demoKey 1).priv⟩
  let key : NodeKey := ⟨(demoKey 2).pub, (demoKey 1).priv⟩
  have hload : loadOrGenNodeID demoLib ⟨true, true, .stops .generate⟩ ⟨files, none⟩ =
      (some (.ok name), ⟨files, some key⟩) := by decide
  refine ⟨⟨⟨none, some (demoKey 1).priv⟩, none⟩, ⟨files, none⟩, rfl, by decide, _, name,
    ⟨files, some key⟩, hload, rfl, ?_, fun now addr countryCode ↦ ?_⟩
  · intro k hk
    rw [Option.some_inj] at hk
    subst hk
    decide
  · have hpriv : key.priv.length = 64 := by decide
    obtain ⟨entry, hbuild, hverify⟩ := verifyRelayEntry_build (L := demoLib)
      (unhex_hexText (demoKey 2).pub) (by decide) hpriv files now addr countryCode
    refine ⟨entry, hbuild, ?_⟩
    rw [hverify, if_neg]
    exact (by decide : ¬((demoKey 1).pub ++ (demoKey 1).pub == (demoKey 2).pub ++ (demoKey 2).pub) =
      true)

end TunnelCat.Identity
