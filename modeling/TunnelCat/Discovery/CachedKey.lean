import TunnelCat.Discovery.Advisory
import TunnelCat.Discovery.Rollback
import TunnelCat.Lib.ByteText
import Mathlib.Data.List.DropRight

/-!
# The key of the arbiter and the cache file

A manifest that has been stored is loaded in two ways.  `NewDiscoverer` makes a discoverer, which
loads it with `LoadCached`; before there is one, `ReadManifestCacheControlsAndRegions` reads the
addresses out of the file.  Both are given the key of the arbiter as hexadecimal text, and both mean
by an empty text that signatures are not to be checked.

They differ in what they make of a text that is not a key.  `NewDiscoverer` returns an error.
`ReadManifestCacheControlsAndRegions` goes on without a key, and without a key `verify` accepts
every signature: a key that is configured, but with a digit too few, is treated as if none were.

`cachedKey_iff` is for every text: the addresses that are returned are signed with the key it stands
for, and are those that `LoadCached` would have loaded, exactly if it stands for one.
`Client.loadCached` of the clients that run is the same function (`loadCached_eq`).
-/

set_option autoImplicit false

namespace TunnelCat.Discovery

/-- `ed25519.PublicKeySize`. -/
def publicKeySize : ℕ := 32

/-- The key that a text stands for. -/
def keyOf (pubkeyHex : Bytes) : Option Bytes :=
  (ByteText.unhex pubkeyHex).filter fun b ↦ b.length = publicKeySize

/-- `strings.TrimRight(s, "/")`. -/
def trimSlashes (s : String) : String := String.ofList (s.toList.rdropWhile (· = '/'))

namespace Discoverer

/-- `NewDiscoverer`; without the callbacks that are set later. -/
def newDiscoverer (serverURL : String) (pubkeyHex : Bytes) (cacheFile : String) (onChange : Bool) :
    Outcome Discoverer :=
  let d : Discoverer :=
    ⟨none, cacheFile, [trimSlashes serverURL], [], [], [], [], [], .none, onChange, false, false⟩
  if pubkeyHex ≠ [] then
    match ByteText.unhex pubkeyHex with
    | none => .err "discovery: invalid arbiter pubkey hex (need 32 bytes)"
    | some b =>
      if b.length ≠ publicKeySize then
        .err "discovery: invalid arbiter pubkey hex (need 32 bytes)"
      else .ok { d with pubkey := some b }
  else .ok d

/-- The text of a cache file: what it decrypts to, or else the file itself. -/
def plainOf (E : Env) (enc : Bytes) : Bytes := (E.decrypt enc).getD enc

/-- `LoadCached`, with what reading the file returns. -/
def loadCached (E : Env) (d : Discoverer) (file : Except String Bytes) :
    Outcome (Discoverer × List Effect) :=
  if d.cacheFile = "" then .err "discovery: no cache file configured"
  else
    match file with
    | .error err => .err err
    | .ok enc =>
      match d.verify E (plainOf E enc) with
      | .ok v =>
        let (d, effects) := d.setControls v
        .ok ({ d with manifestSource := .cached }, effects)
      | .err err => .err ("discovery: cached manifest invalid: " ++ err)
      | .panic => .panic

/-- `ReadManifestCacheControlsAndRegions`, with what reading the file returns. -/
def readManifestCacheControlsAndRegions (E : Env) (file : Except String Bytes) (pubkeyHex : Bytes) :
    List String × List (String × String) :=
  match file with
  | .error _ => ([], [])
  | .ok enc =>
    let d : Discoverer := ⟨none, "", [], [], [], [], [], [], .none, false, false, false⟩
    -- a text that does not decode, or not to 32 bytes, leaves the key unset
    let d :=
      if pubkeyHex ≠ [] then
        match ByteText.unhex pubkeyHex with
        | some b => if b.length = publicKeySize then { d with pubkey := some b } else d
        | none => d
      else d
    match d.verify E (plainOf E enc) with
    | .ok v => (v.addrs, v.regions)
    | _ => ([], [])

/-- `ReadManifestCacheControls`. -/
def readManifestCacheControls (E : Env) (file : Except String Bytes) (pubkeyHex : Bytes) :
    List String :=
  (readManifestCacheControlsAndRegions E file pubkeyHex).1

variable {E : Env} {d : Discoverer} {file : Except String Bytes} {pubkeyHex : Bytes}

/-! ## The clients that run -/

/-- `LoadCached` of a client: the discoverer stays as it is if there is an error. -/
theorem loadCached_eq (E : ClientEnv) (c : Client) :
    (c.loadCached E).d =
      match c.d.loadCached E.toEnv (c.cache.elim (.error "no such file") .ok) with
      | .ok r => r.1
      | _ => c.d := by
  rw [Client.loadCached, loadCached.eq_def]
  split
  · rfl
  · cases c.cache with
    | none => rfl
    | some enc =>
      dsimp only [Option.elim_some, plainOf]
      cases c.d.verify E.toEnv ((E.decrypt enc).getD enc) with
      | ok v => rfl
      | err err => rfl
      | panic => rfl

/-! ## Documents that pass -/

/-- What passes is determined by the key. -/
theorem verify_congr (E : Env) {d d' : Discoverer} (h : d.pubkey = d'.pubkey) (data : Bytes) :
    d.verify E data = d'.verify E data := by
  rw [verify, verify, h]

/-- A document that passes has a manifest with addresses, and its signature is right. -/
theorem signed_of_verify {data : Bytes} {v : Verified} (h : d.verify E data = .ok v) :
    v.addrs ≠ [] ∧ ∃ m, E.unmarshal data = some m ∧ signatureOk E d.pubkey m = true := by
  obtain ⟨m, hm, -, haddrs⟩ := verify_eq_ok h
  obtain ⟨-, hsig, hne⟩ := (exists_verify_eq_ok_iff hm).mp ⟨v, h⟩
  exact ⟨haddrs ▸ hne, m, hm, hsig⟩

/-! ## Texts that stand for a key -/

variable {key : Bytes}

theorem keyOf_eq_some_iff :
    keyOf pubkeyHex = some key ↔
      ByteText.unhex pubkeyHex = some key ∧ key.length = publicKeySize := by
  rw [keyOf, Option.filter_eq_some_iff, decide_eq_true_iff]

/-- A text that stands for no key may decode all the same, to another length. -/
theorem length_ne_of_keyOf_eq_none {b : Bytes} (h : keyOf pubkeyHex = none)
    (hhex : ByteText.unhex pubkeyHex = some b) : b.length ≠ publicKeySize := by
  intro hlen
  rw [keyOf_eq_some_iff.mpr ⟨hhex, hlen⟩] at h
  exact Option.some_ne_none b h

/-- A discoverer with a key, that has loaded nothing. -/
def withKey (key : Bytes) (serverURL cacheFile : String) (onChange : Bool) : Discoverer :=
  ⟨some key, cacheFile, [trimSlashes serverURL], [], [], [], [], [], .none, onChange, false, false⟩

theorem ne_nil_of_keyOf (h : keyOf pubkeyHex = some key) : pubkeyHex ≠ [] := by
  rintro rfl
  obtain ⟨hhex, hlen⟩ := keyOf_eq_some_iff.mp h
  have hnil := ByteText.length_of_unhex hhex
  rw [hlen] at hnil
  exact absurd hnil (by decide)

theorem newDiscoverer_of_keyOf (h : keyOf pubkeyHex = some key) (serverURL cacheFile : String)
    (onChange : Bool) :
    newDiscoverer serverURL pubkeyHex cacheFile onChange =
      .ok (withKey key serverURL cacheFile onChange) := by
  obtain ⟨hhex, hlen⟩ := keyOf_eq_some_iff.mp h
  rw [newDiscoverer, if_pos (ne_nil_of_keyOf h), hhex]
  dsimp only
  rw [if_neg (not_not_intro hlen)]
  rfl

theorem newDiscoverer_of_not_keyOf (hne : pubkeyHex ≠ []) (h : keyOf pubkeyHex = none)
    (serverURL cacheFile : String) (onChange : Bool) :
    newDiscoverer serverURL pubkeyHex cacheFile onChange =
      .err "discovery: invalid arbiter pubkey hex (need 32 bytes)" := by
  rw [newDiscoverer, if_pos hne]
  cases hhex : ByteText.unhex pubkeyHex with
  | none => rfl
  | some b =>
    dsimp only
    rw [if_pos (length_ne_of_keyOf_eq_none h hhex)]

/-- What is read from a file, with a key. -/
theorem read_of_keyOf (h : keyOf pubkeyHex = some key) (E : Env) (enc : Bytes) :
    readManifestCacheControlsAndRegions E (.ok enc) pubkeyHex =
      match (withKey key "" "" false).verify E (plainOf E enc) with
      | .ok v => (v.addrs, v.regions)
      | _ => ([], []) := by
  obtain ⟨hhex, hlen⟩ := keyOf_eq_some_iff.mp h
  rw [readManifestCacheControlsAndRegions]
  dsimp only
  rw [if_pos (ne_nil_of_keyOf h), hhex]
  dsimp only
  rw [if_pos hlen]
  rfl

/-- What is read has addresses exactly if the text passes, and then they are those of the text. -/
theorem read_eq_iff (h : keyOf pubkeyHex = some key) (E : Env) (enc : Bytes) {addrs : List String}
    {regions : List (String × String)} (hne : addrs ≠ []) :
    readManifestCacheControlsAndRegions E (.ok enc) pubkeyHex = (addrs, regions) ↔
      ∃ v, (withKey key "" "" false).verify E (plainOf E enc) = .ok v ∧
        v.addrs = addrs ∧ v.regions = regions := by
  rw [read_of_keyOf h]
  refine ⟨fun hread ↦ ?_, ?_⟩
  · split at hread
    · rename_i v hv
      exact ⟨v, hv, Prod.mk.inj hread⟩
    · exact absurd (congrArg Prod.fst hread).symm hne
  · rintro ⟨v, hv, rfl, rfl⟩
    rw [hv]

/-- What a discoverer with a key loads from a file. -/
theorem loadCached_withKey_iff (key : Bytes) (serverURL : String) {cacheFile : String}
    (onChange : Bool) (hfile : cacheFile ≠ "") (E : Env) (enc : Bytes) (addrs : List String)
    (regions : List (String × String)) :
    (∃ d' effects, (withKey key serverURL cacheFile onChange).loadCached E (.ok enc) =
        .ok (d', effects) ∧ d'.controls = addrs ∧ d'.regions = regions) ↔
      ∃ v, (withKey key "" "" false).verify E (plainOf E enc) = .ok v ∧
        v.addrs = addrs ∧ v.regions = regions := by
  have hcache : (withKey key serverURL cacheFile onChange).cacheFile ≠ "" := hfile
  rw [loadCached, if_neg hcache]
  dsimp only
  have hverify : (withKey key serverURL cacheFile onChange).verify E (plainOf E enc) =
      (withKey key "" "" false).verify E (plainOf E enc) := verify_congr E rfl _
  rw [hverify]
  refine ⟨?_, ?_⟩
  · rintro ⟨d', effects, h, rfl, rfl⟩
    split at h
    · rename_i v hv
      obtain ⟨rfl, -⟩ := Prod.mk.inj (Outcome.ok.inj h)
      exact ⟨v, hv, rfl, rfl⟩
    · exact absurd h (by simp)
    · exact absurd h (by simp)
  · rintro ⟨v, hv, rfl, rfl⟩
    rw [hv]
    exact ⟨_, _, rfl, rfl, rfl⟩

/-! ## The result -/

/-- What is expected of reading a file with a text for the key. -/
structure Checked (E : Env) (file : Except String Bytes) (pubkeyHex : Bytes) : Prop where
  /-- Addresses are returned only if the manifest is signed with the key. -/
  signed : readManifestCacheControls E file pubkeyHex ≠ [] →
    ∃ key enc m, keyOf pubkeyHex = some key ∧ file = .ok enc ∧
      E.unmarshal (plainOf E enc) = some m ∧ signatureOk E (some key) m = true
  /-- They are those that a discoverer with this key loads from the file. -/
  agrees : ∀ serverURL cacheFile onChange addrs regions, cacheFile ≠ "" → addrs ≠ [] →
    (readManifestCacheControlsAndRegions E file pubkeyHex = (addrs, regions) ↔
      ∃ d, newDiscoverer serverURL pubkeyHex cacheFile onChange = .ok d ∧
        ∃ d' effects, d.loadCached E file = .ok (d', effects) ∧
          d'.controls = addrs ∧ d'.regions = regions)

/-- Nothing is read or loaded from a file that cannot be read. -/
theorem checked_error (E : Env) (err : String) (pubkeyHex : Bytes) :
    Checked E (.error err) pubkeyHex := by
  refine ⟨fun h ↦ absurd rfl h, fun serverURL cacheFile onChange addrs regions _ hne ↦ ?_⟩
  refine ⟨fun h ↦ absurd (congrArg Prod.fst h).symm hne, ?_⟩
  rintro ⟨d, -, d', effects, hload, -⟩
  rw [loadCached.eq_def] at hload
  split at hload
  · exact absurd hload (by simp)
  · exact absurd hload (by simp)

theorem checked_of_keyOf (hkey : keyOf pubkeyHex = some key) (E : Env) (enc : Bytes) :
    Checked E (.ok enc) pubkeyHex := by
  refine ⟨fun h ↦ ?_, fun serverURL cacheFile onChange addrs regions hfile hne ↦ ?_⟩
  · obtain ⟨v, hv, -⟩ := (read_eq_iff hkey E enc h).mp rfl
    obtain ⟨-, m, hm, hsig⟩ := signed_of_verify hv
    exact ⟨key, enc, m, hkey, rfl, hm, hsig⟩
  · rw [read_eq_iff hkey E enc hne,
      ← loadCached_withKey_iff key serverURL onChange hfile E enc addrs regions,
      newDiscoverer_of_keyOf hkey]
    simp only [Outcome.ok.injEq, exists_eq_left']

/-- A text that stands for no key is read as if it were empty, whatever the signature is. -/
theorem read_of_not_keyOf (h : keyOf pubkeyHex = none) (E : Env) (enc : Bytes) :
    readManifestCacheControlsAndRegions E (.ok enc) pubkeyHex =
      readManifestCacheControlsAndRegions E (.ok enc) [] := by
  by_cases hne : pubkeyHex = []
  · rw [hne]
  · rw [readManifestCacheControlsAndRegions, readManifestCacheControlsAndRegions]
    dsimp only
    rw [if_pos hne, if_neg (not_not_intro rfl)]
    cases hhex : ByteText.unhex pubkeyHex with
    | none => rfl
    | some b =>
      dsimp only
      rw [if_neg (length_ne_of_keyOf_eq_none h hhex)]

/-- An environment in which no signature is right. -/
def unsignedEnv : Env := { demoEnv with ed25519Verify := fun _ _ _ ↦ false }

/-- **The addresses that are read from the cache file are signed exactly if the key is one.**
Whatever the file and the environment are, addresses are returned only if the manifest is signed
with the key, and they are those that `NewDiscoverer` and `LoadCached` with the same text give;
exactly if the text stands for a key of 32 bytes.  The empty text, with which nothing is meant to be
checked, stands for none. -/
theorem cachedKey_iff (pubkeyHex : Bytes) :
    (∀ E file, Checked E file pubkeyHex) ↔ ∃ key, keyOf pubkeyHex = some key := by
  refine ⟨fun h ↦ ?_, ?_⟩
  · cases hkey : keyOf pubkeyHex with
    | some key => exact ⟨key, rfl⟩
    | none =>
      -- the manifest of this environment is not signed, and its addresses are returned
      have hread : readManifestCacheControls unsignedEnv (.ok []) pubkeyHex ≠ [] := by
        rw [readManifestCacheControls, read_of_not_keyOf hkey]
        decide
      obtain ⟨key, -, -, hsome, -⟩ := (h unsignedEnv (.ok [])).signed hread
      exact absurd (hkey.symm.trans hsome) (by simp)
  · rintro ⟨key, hkey⟩ E file
    cases file with
    | error err => exact checked_error E err pubkeyHex
    | ok enc => exact checked_of_keyOf hkey E enc

/-- The text of a key of zeros. -/
def zeroKeyHex : Bytes := List.replicate 64 0x30

-- with a key, a manifest that is not signed gives no address
example : readManifestCacheControls unsignedEnv (.ok []) zeroKeyHex = [] := by decide

/-- **With a key of 31 bytes the check is off**: no signature is right, `NewDiscoverer` refuses the
key, and both addresses of the manifest are returned. -/
theorem shortKey_unchecked :
    zeroKeyHex.take 62 ≠ [] ∧
      newDiscoverer "https://arbiter" (zeroKeyHex.take 62) "manifest.cache" true =
        .err "discovery: invalid arbiter pubkey hex (need 32 bytes)" ∧
      (∀ key data sig, unsignedEnv.ed25519Verify key data sig = false) ∧
      readManifestCacheControls unsignedEnv (.ok []) (zeroKeyHex.take 62) =
        ["198.51.100.11:443", "198.51.100.12:443"] :=
  ⟨by decide, newDiscoverer_of_not_keyOf (by decide) (by decide) _ _ _, fun _ _ _ ↦ rfl, rfl⟩

end Discoverer

end TunnelCat.Discovery
