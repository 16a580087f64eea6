import TunnelCat.Dht.NodeRuns
import TunnelCat.Discovery.Discoverer
import TunnelCat.Lib.Trace

/-!
# Rolling the control list back

A client is a `Discoverer`, its cache file and the DHT node that gossips manifests.  The node passes
a manifest on when the time stamp *around* it is newer than the one it gossips itself; that time
stamp is not signed, and the node's own is set by fetches only.  None of the entry points of the
`Discoverer` compares the time stamp that *is* signed.

`current` is the manifest whose nodes are in `Controls()`; it is not a variable of the program but a
record of the last call of `setControls`, and `controls_eq` ties it to the list.  The runs that
never go back are exactly those in which every manifest that is accepted is at least as new as the
one in force and, if it gets written, as the one on disk.  `os.WriteFile` truncates the file when it
opens it, so a write that fails can leave less on disk than there was.
-/

set_option autoImplicit false

open Trace

namespace TunnelCat.Discovery

/-- The library functions of a client. -/
structure ClientEnv extends Env where
  /-- Those of its DHT node. -/
  dht : Dht.Env

/-- A client. -/
structure Client where
  /-- The discoverer. -/
  d : Discoverer
  /-- The content of the cache file, if there is one. -/
  cache : Option Bytes
  /-- The DHT node; its manifest handler is `InjectRaw`, and what is fetched is set there. -/
  node : Dht.Node
  /-- The manifest whose nodes are in `Controls()`. -/
  current : Option SignedManifest

/-- How far `persist` comes with the cache file. -/
inductive Write where
  /-- The directory cannot be made or the file not be opened: it is as before. -/
  | unopened
  /-- The file is written. -/
  | full
  /-- The file is opened, which truncates it, and the write fails after this many bytes. -/
  | torn (n : ℕ)

/-- What is in the file then. -/
def Write.leaves (old : Option Bytes) (enc : Bytes) : Write → Option Bytes
  | .unopened => old
  | .full => some enc
  | .torn n => some (enc.take n)

namespace Client

/-- The list is replaced by that of a verified document. -/
def apply (E : ClientEnv) (c : Client) (data : Bytes) (v : Verified) : Client :=
  { c with d := (c.d.setControls v).1, current := E.unmarshal data }

/-- What `persist` is going to write: a cache file is configured, and encryption works. -/
def encrypted (E : ClientEnv) (c : Client) (data : Bytes) : Option Bytes :=
  if c.d.cacheFile = "" then none else E.encrypt data

/-- The cache file after `persist`. -/
def saved (E : ClientEnv) (c : Client) (data : Bytes) (w : Write) : Option Bytes :=
  match c.encrypted E data with
  | none => c.cache
  | some enc => w.leaves c.cache enc

/-- `Discoverer.persist`, if a cache file is configured. -/
def persist (E : ClientEnv) (c : Client) (data : Bytes) (w : Write) : Client :=
  { c with cache := c.saved E data w }

/-- How the manifest was obtained is noted. -/
def withSource (c : Client) (src : ManifestSource) : Client :=
  { c with d := { c.d with manifestSource := src } }

/-- The callback of a fetch, which is `SetManifest` of the node. -/
def notifyFetch (E : ClientEnv) (c : Client) (data : Bytes) : Client :=
  if c.d.onFetch then { c with node := c.node.setManifest data (E.unmarshalTS data) } else c

/-- `Discoverer.LoadCached`. -/
def loadCached (E : ClientEnv) (c : Client) : Client :=
  if c.d.cacheFile = "" then c
  else
    match c.cache with
    | none => c
    | some enc =>
      let plain := (E.decrypt enc).getD enc
      match c.d.verify E.toEnv plain with
      | .ok v => (c.apply E plain v).withSource .cached
      | _ => c

/-- `Discoverer.fetchAndApply`, with what `fetch` returned. -/
def fetchAndApply (E : ClientEnv) (c : Client) (data : Option Bytes) (w : Write) : Client :=
  match data with
  | none => c
  | some data =>
    match c.d.verify E.toEnv data with
    | .ok v => (((c.apply E data v).withSource .fresh).persist E data w).notifyFetch E data
    | _ => c

/-- `Discoverer.InjectRaw`. -/
def injectRaw (E : ClientEnv) (c : Client) (data : Bytes) (w : Write) : Client :=
  match c.d.verify E.toEnv data with
  | .ok v => (c.apply E data v).persist E data w
  | _ => c

/-- The manifest a handler passes on; `handleManifestData` does so at most once. -/
def gossiped (es : List Dht.Effect) : Option Bytes :=
  es.findSome? fun
    | .gotManifest raw => some raw
    | _ => none

/-- A datagram arrives at the node. -/
def handlePacket (E : ClientEnv) (c : Client) (now : ℤ) (pkt : Bytes) (src : String)
    (w : Write) : Client :=
  let r := c.node.handlePacket E.dht now pkt src
  match gossiped r.2 with
  | some raw => { c with node := r.1 }.injectRaw E raw w
  | none => { c with node := r.1 }

/-- What can happen to a client. -/
inductive Event where
  /-- `LoadCached`. -/
  | loadCached
  /-- `fetchAndApply`. -/
  | fetch (data : Option Bytes) (w : Write)
  /-- `InjectRaw` by someone else than the node. -/
  | inject (data : Bytes) (w : Write)
  /-- A datagram arrives. -/
  | packet (now : ℤ) (pkt : Bytes) (src : String) (w : Write)

/-- One step of a client. -/
def step (E : ClientEnv) (c : Client) : Event → Option Client
  | .loadCached => some (c.loadCached E)
  | .fetch data w => some (c.fetchAndApply E data w)
  | .inject data w => some (c.injectRaw E data w)
  | .packet now pkt src w => some (c.handlePacket E now pkt src w)

/-- A client that has just started: nothing is known but the cache file. -/
def start (d : Discoverer) (cache : Option Bytes) (node : Dht.Node) : Client :=
  ⟨{ d with controls := [] }, cache, node, none⟩

/-! ## What is in force and what is on disk -/

/-- The time stamp of the manifest in force. -/
def currentTS (c : Client) : Option ℤ := c.current.map SignedManifest.ts

/-- The manifest in the cache file, as `LoadCached` would find it. -/
def cached (E : ClientEnv) (c : Client) : Option SignedManifest :=
  c.cache.bind fun enc ↦ c.d.accepted E.toEnv ((E.decrypt enc).getD enc)

/-- Its time stamp. -/
def cachedTS (E : ClientEnv) (c : Client) : Option ℤ := (c.cached E).map SignedManifest.ts

/-- The document a step hands to `verify`. -/
def delivered (E : ClientEnv) (c : Client) : Event → Option Bytes
  | .loadCached =>
    if c.d.cacheFile = "" then none else c.cache.map fun enc ↦ (E.decrypt enc).getD enc
  | .fetch data _ => data
  | .inject data _ => some data
  | .packet now pkt src _ => gossiped (c.node.handlePacket E.dht now pkt src).2

/-- How far the step comes with the cache file if it accepts a document. -/
def Event.write : Event → Write
  | .loadCached => .unopened
  | .fetch _ w => w
  | .inject _ w => w
  | .packet _ _ _ w => w

/-- A step that accepts nothing. -/
structure Unmoved (c c' : Client) : Prop where
  /-- The key is the same. -/
  pubkey : c'.d.pubkey = c.d.pubkey
  /-- The list is the same. -/
  controls : c'.d.controls = c.d.controls
  /-- The manifest in force is the same. -/
  current : c'.current = c.current
  /-- The file is the same. -/
  cache : c'.cache = c.cache

/-- A step that accepts the manifest `m` in `data`, and comes so far with the file. -/
structure Moved (E : ClientEnv) (c c' : Client) (data : Bytes) (m : SignedManifest) (w : Write) :
    Prop where
  /-- The key is the same. -/
  pubkey : c'.d.pubkey = c.d.pubkey
  /-- The list is that of the manifest. -/
  controls : c'.d.controls = m.addrs
  /-- The manifest is in force. -/
  current : c'.current = some m
  /-- The file is as `persist` leaves it. -/
  cache : c'.cache = c.saved E data w

theorem saved_unopened (E : ClientEnv) (c : Client) (data : Bytes) :
    c.saved E data .unopened = c.cache := by
  rw [saved]
  split <;> rfl

variable {E : ClientEnv} {c c' : Client} {m : SignedManifest}

theorem Moved.notifyFetch {data : Bytes} {w : Write} (h : Moved E c c' data m w) :
    Moved E c (c'.notifyFetch E data) data m w := by
  rw [Client.notifyFetch]
  split
  · exact ⟨h.pubkey, h.controls, h.current, h.cache⟩
  · exact h

theorem injectRaw_cases (E : ClientEnv) (c : Client) (data : Bytes) (w : Write) :
    (c.d.accepted E.toEnv data = none ∧ Unmoved c (c.injectRaw E data w)) ∨
    ∃ m, c.d.accepted E.toEnv data = some m ∧
      Moved E c (c.injectRaw E data w) data m w := by
  rw [injectRaw]
  split
  · rename_i v hv
    obtain ⟨m, hm, hacc, haddrs⟩ := Discoverer.verify_eq_ok hv
    exact Or.inr ⟨m, hacc, rfl, haddrs, hm, rfl⟩
  · rename_i hno
    exact Or.inl ⟨Discoverer.accepted_of_not_ok hno, rfl, rfl, rfl, rfl⟩

theorem fetchAndApply_cases (E : ClientEnv) (c : Client) (data : Bytes) (w : Write) :
    (c.d.accepted E.toEnv data = none ∧ Unmoved c (c.fetchAndApply E (some data) w)) ∨
    ∃ m, c.d.accepted E.toEnv data = some m ∧
      Moved E c (c.fetchAndApply E (some data) w) data m w := by
  rw [fetchAndApply]
  split
  · rename_i v hv
    obtain ⟨m, hm, hacc, haddrs⟩ := Discoverer.verify_eq_ok hv
    have hmoved : Moved E c (((c.apply E data v).withSource .fresh).persist E data w) data m w :=
      ⟨rfl, haddrs, hm, rfl⟩
    exact Or.inr ⟨m, hacc, hmoved.notifyFetch⟩
  · rename_i hno
    exact Or.inl ⟨Discoverer.accepted_of_not_ok hno, rfl, rfl, rfl, rfl⟩

theorem loadCached_cases (E : ClientEnv) (c : Client) :
    ((∀ data, c.delivered E .loadCached = some data → c.d.accepted E.toEnv data = none) ∧
      Unmoved c (c.loadCached E)) ∨
    ∃ data m, c.delivered E .loadCached = some data ∧ c.d.accepted E.toEnv data = some m ∧
      Moved E c (c.loadCached E) data m .unopened := by
  rw [loadCached, delivered]
  split
  · exact Or.inl ⟨by simp, rfl, rfl, rfl, rfl⟩
  · rcases hc : c.cache with _ | enc
    · exact Or.inl ⟨by simp, rfl, rfl, rfl, rfl⟩
    · simp only [Option.map_some, Option.some_inj]
      split
      · rename_i v hv
        obtain ⟨m, hm, hacc, haddrs⟩ := Discoverer.verify_eq_ok hv
        exact Or.inr ⟨_, m, rfl, hacc, rfl, haddrs, hm, (saved_unopened E c _).symm⟩
      · rename_i hno
        refine Or.inl ⟨?_, rfl, rfl, rfl, rfl⟩
        rintro _ rfl
        exact Discoverer.accepted_of_not_ok hno

/-- **What a step does**: it accepts the document that is delivered, or nothing moves. -/
theorem step_cases {e : Event} (h : step E c e = some c') :
    ((∀ data, c.delivered E e = some data → c.d.accepted E.toEnv data = none) ∧ Unmoved c c') ∨
    ∃ data m, c.delivered E e = some data ∧ c.d.accepted E.toEnv data = some m ∧
      Moved E c c' data m e.write := by
  cases e with
  | loadCached =>
    rw [step, Option.some_inj] at h
    exact h ▸ loadCached_cases E c
  | fetch data w =>
    rw [step, Option.some_inj] at h
    subst h
    cases data with
    | none => exact Or.inl ⟨by simp [delivered], rfl, rfl, rfl, rfl⟩
    | some data =>
      rcases fetchAndApply_cases E c data w with ⟨hno, hu⟩ | ⟨m, hacc, hm⟩
      · exact Or.inl ⟨by simpa [delivered] using hno, hu⟩
      · exact Or.inr ⟨data, m, rfl, hacc, hm⟩
  | inject data w =>
    rw [step, Option.some_inj] at h
    subst h
    rcases injectRaw_cases E c data w with ⟨hno, hu⟩ | ⟨m, hacc, hm⟩
    · exact Or.inl ⟨by simpa [delivered] using hno, hu⟩
    · exact Or.inr ⟨data, m, rfl, hacc, hm⟩
  | packet now pkt src w =>
    rw [step, Option.some_inj] at h
    subst h
    rw [handlePacket, delivered]
    rcases hg : gossiped (c.node.handlePacket E.dht now pkt src).2 with _ | raw
    · exact Or.inl ⟨by simp, rfl, rfl, rfl, rfl⟩
    · rcases injectRaw_cases E { c with node := (c.node.handlePacket E.dht now pkt src).1 } raw
        w
        with ⟨hno, hu⟩ | ⟨m, hacc, hm⟩
      · exact Or.inl ⟨by simpa using hno, hu.pubkey, hu.controls, hu.current, hu.cache⟩
      · exact Or.inr ⟨raw, m, rfl, hacc, hm.pubkey, hm.controls, hm.current, hm.cache⟩

/-! ## Going back -/

/-- A time stamp is still there and not smaller. -/
def tsLe (x y : Option ℤ) : Prop := ∀ a, x = some a → ∃ b, y = some b ∧ a ≤ b

theorem tsLe_refl (x : Option ℤ) : tsLe x x := fun a ha ↦ ⟨a, ha, le_refl a⟩

/-- Neither the manifest in force nor the one on disk is older than before. -/
def NeverDecreases (E : ClientEnv) (c c' : Client) : Prop :=
  tsLe c.currentTS c'.currentTS ∧ tsLe (c.cachedTS E) (c'.cachedTS E)

/-- The manifest on disk is not lost to a write that comes so far: a manifest that is written is at
least as new, and what a write that fails leaves behind is as well. -/
def Spared (E : ClientEnv) (c : Client) (m : SignedManifest) (enc : Bytes) : Write → Prop
  | .unopened => True
  | .full => tsLe (c.cachedTS E) (some m.ts)
  | .torn n => tsLe (c.cachedTS E) ({ c with cache := some (enc.take n) }.cachedTS E)

/-- A manifest that is accepted is at least as new as the one in force, and storing it does not lose
the one on disk. -/
def NotOlder (E : ClientEnv) (c : Client) (e : Event) : Prop :=
  ∀ data m, c.delivered E e = some data → c.d.accepted E.toEnv data = some m →
    tsLe c.currentTS (some m.ts) ∧ ∀ enc, c.encrypted E data = some enc → c.Spared E m enc e.write

/-- The manifest on disk depends on the key and the file. -/
theorem cachedTS_congr (E : ClientEnv) (hkey : c'.d.pubkey = c.d.pubkey)
    (hcache : c'.cache = c.cache) : c'.cachedTS E = c.cachedTS E := by
  rw [cachedTS, cachedTS, cached, cached, hcache]
  simp only [Discoverer.accepted_congr E.toEnv hkey]

/-- What is written can be loaded. -/
theorem cachedTS_encrypted {c : Client} {data enc : Bytes}
    (hacc : c.d.accepted E.toEnv data = some m) (henc : c.encrypted E data = some enc) :
    { c with cache := some enc }.cachedTS E = some m.ts := by
  have henc : E.encrypt data = some enc := by
    rw [encrypted] at henc
    split at henc
    · exact absurd henc (by simp)
    · exact henc
  rw [cachedTS, cached, Option.bind_some, E.decrypt_encrypt _ _ henc, Option.getD_some, hacc,
    Option.map_some]

theorem Moved.tsLe_cachedTS_iff {data : Bytes} {w : Write} (h : Moved E c c' data m w)
    (hacc : c.d.accepted E.toEnv data = some m) :
    tsLe (c.cachedTS E) (c'.cachedTS E) ↔
      ∀ enc, c.encrypted E data = some enc → c.Spared E m enc w := by
  have hts : c'.cachedTS E = { c with cache := c.saved E data w }.cachedTS E :=
    cachedTS_congr E h.pubkey h.cache
  rw [hts, saved]
  rcases henc : c.encrypted E data with _ | enc
  · exact iff_of_true (tsLe_refl _) (by simp)
  · simp only [Option.some_inj, forall_eq']
    cases w with
    | unopened => exact iff_of_true (tsLe_refl _) trivial
    | full => rw [Write.leaves, cachedTS_encrypted hacc henc, Spared]
    | torn n => exact Iff.rfl

/-- **When one step does not go back.** -/
theorem neverDecreases_iff (E : ClientEnv) (c : Client) (e : Event) :
    (∀ c', step E c e = some c' → NeverDecreases E c c') ↔ NotOlder E c e := by
  obtain ⟨c', hc'⟩ : ∃ c', step E c e = some c' := by cases e <;> exact ⟨_, rfl⟩
  simp only [hc', Option.some_inj, forall_eq']
  rcases step_cases hc' with ⟨hno, hu⟩ | ⟨data, m, hdel, hacc, hm⟩
  · refine iff_of_true ?_ fun data m hdel hacc ↦ ?_
    · rw [NeverDecreases, cachedTS_congr E hu.pubkey hu.cache, currentTS, currentTS, hu.current]
      exact ⟨tsLe_refl _, tsLe_refl _⟩
    · rw [hno data hdel] at hacc
      exact absurd hacc (by simp)
  · have hcur : c'.currentTS = some m.ts := by rw [currentTS, hm.current, Option.map_some]
    rw [NeverDecreases, hcur, hm.tsLe_cachedTS_iff hacc]
    constructor
    · intro h data' m' hdel' hacc'
      rw [hdel, Option.some_inj] at hdel'
      subst hdel'
      rw [hacc, Option.some_inj] at hacc'
      subst hacc'
      exact h
    · exact fun h ↦ h data m hdel hacc

/-- The list is that of the manifest in force. -/
theorem controls_eq {d : Discoverer} {cache : Option Bytes} {node : Dht.Node} {es : List Event}
    {c : Client} (h : exec (step E) (start d cache node) es = some c) :
    c.d.controls = (c.current.map SignedManifest.addrs).getD [] := by
  refine Trace.inv_of_exec (P := fun c ↦ c.d.controls =
    (c.current.map SignedManifest.addrs).getD []) (fun {s e t} hs hstep ↦ ?_) rfl h
  rcases step_cases hstep with ⟨-, hu⟩ | ⟨data, m, -, -, hm⟩
  · rw [hu.controls, hu.current, hs]
  · rw [hm.controls, hm.current, Option.map_some, Option.getD_some]

/-- **Which runs never go back.**  From a client that has just started, for any sequence of loads,
fetches, injections and datagrams: the manifest in force and the one on disk never get older if and
only if no manifest is accepted that is older than the one in force, or written that is older than
the one on disk, and no write fails after it has truncated the file, unless what is left of the new
manifest can be loaded and is as new as the old one.  Throughout, the list of controls is that of
the manifest in force. -/
theorem anti_rollback_iff (E : ClientEnv) (d : Discoverer) (cache : Option Bytes) (node : Dht.Node)
    (es : List Event) :
    (Along (step E) (fun c e ↦ ∀ c', step E c e = some c' → NeverDecreases E c c')
        (start d cache node) es ↔
      Along (step E) (NotOlder E) (start d cache node) es) ∧
    ∀ c, exec (step E) (start d cache node) es = some c →
      c.d.controls = (c.current.map SignedManifest.addrs).getD [] :=
  ⟨Trace.along_congr (neverDecreases_iff E) _ es, fun _ h ↦ controls_eq h⟩

/-! ## A replay -/

/-- A manifest with one node. -/
def demoManifest (ts : ℤ) (addr sig : String) : SignedManifest :=
  ⟨"manifest", ts, [⟨addr, ""⟩], sig, [], [], [], [], []⟩

/-- An environment with two signed manifests, an old and a new one, in which every gossiped manifest
is the old one with a time stamp of 3 around it.  The signature of a message is the message. -/
def replayEnv : ClientEnv where
  unmarshal data :=
    if data = [1] then some (demoManifest 1 "198.51.100.11:443" "one")
    else if data = [2] then some (demoManifest 2 "198.51.100.12:443" "two")
    else none
  unmarshalError _ := ""
  unmarshalTS data := if data = [1] then 1 else if data = [2] then 2 else 0
  canonical _ ts _ := [UInt8.ofNat ts.toNat]
  base64Decode s := if s = "one" then some [1] else if s = "two" then some [2] else none
  ed25519Verify _ msg sig := msg = sig
  encrypt := some
  decrypt := some
  decrypt_encrypt _ _ h := h.symm
  dht := { Dht.Node.demoEnv with unmarshalManifest := fun _ ↦ some ⟨3, [1]⟩ }

/-- A client with the key of the arbiter and a cache file. -/
def replayStart : Client :=
  start ⟨some (List.replicate 32 0), "manifest.json", ["https://198.51.100.10:443"], [], [], [], [],
      [], .none, true, true, true⟩ none
    { Dht.Node.new Dht.RoutingTable.zeroID "198.51.100.1:4000" with onManifest := true }

/-- A datagram with a manifest. -/
def manifestPacket : Bytes :=
  Dht.sealPacket nullAead zeroKey (Vector.replicate 12 0) Dht.noPadding
    Dht.MsgType.manifest.code 0 []

/-- What is to be seen of a client. -/
def view (c : Client) : Option ℤ × Option ℤ × List String × ℤ :=
  (c.currentTS, c.cachedTS replayEnv, c.d.controls, c.node.manifestTS)

/-- **A replay goes back**: the client fetches the new manifest, a peer sends it the old one with a
larger time stamp around it, and the old list is in force and on disk. -/
theorem replay_rolls_back :
    (exec (step replayEnv) replayStart [.fetch (some [2]) .full]).map view =
        some (some 2, some 2, ["198.51.100.12:443"], 2) ∧
      (exec (step replayEnv) replayStart [.fetch (some [2]) .full,
          .packet 0 manifestPacket "198.51.100.7:4000" .full]).map view =
        some (some 1, some 1, ["198.51.100.11:443"], 2) := by
  refine ⟨by decide +kernel, by decide +kernel⟩

end Client

end TunnelCat.Discovery
