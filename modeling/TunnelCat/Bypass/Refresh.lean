import TunnelCat.Cidr.CIDRSet
import TunnelCat.Discovery.CachedKey
import TunnelCat.Lib.GoInt
import TunnelCat.Lib.Trace

/-!
# The list of the client's country

`BypassManager` gets the networks of the client's country from a control node, as a document that
the arbiter has signed.  One goroutine asks for it, every 30 minutes, or every two after a refresh
that failed; it asks the control nodes one after the other and takes the first document that passes
`verifyCIDR`.  Documents that were taken are kept, encrypted, in a file, and `Start` begins with the
document in the file.

`Lists` is the manager as far as this goes, with the goroutine at any point between its requests,
its assignment under the lock, and the steps of `os.WriteFile`.  Control nodes can answer anything,
the token, the address of the client and the list of nodes can be set at any time, and the program
can be stopped and started again anywhere.

* `list_signed`: the networks and the country that are in force come from one document, which was
  signed, and not older than 25 hours when it was checked; and `CIDRStatus` tells where it is from.
* `refresh_first`: a refresh asks the nodes it found at its beginning in order and stops at the
  first document that passes; it fails only if it has asked them all, or if there was no token, and
  then leaves what is in force as it was.
* `list_restored`: what was written to the file completely is in force again after a restart, unless
  it has become too old.
-/

set_option autoImplicit false

open Trace

namespace TunnelCat.Bypass

open Cidr

/-! ## Documents -/

/-- `25 * time.Hour`, in nanoseconds. -/
def maxAge : ℤ := 25 * 60 * 60 * 1000000000

/-- `signedCIDRList`. -/
structure SignedCIDRList where
  /-- `country`. -/
  country : String
  /-- `ts`, in seconds. -/
  ts : ℤ
  /-- `cidrs`. -/
  cidrs : List String
  /-- `sig`. -/
  sig : String

/-- The libraries, and the encryption of the file, which depends on the system (`nodeid_other.go`,
`nodeid_windows.go`). -/
structure ListEnv where
  /-- `json.Unmarshal` into `signedCIDRList`. -/
  unmarshal : Bytes → Option SignedCIDRList
  /-- The text of its error. -/
  unmarshalError : Bytes → String
  /-- What `json.Unmarshal` finds under `country`. -/
  unmarshalCountry : Bytes → String
  /-- The two find the same country. -/
  country_eq : ∀ {data doc}, unmarshal data = some doc → unmarshalCountry data = doc.country
  /-- `json.Marshal` of the country, the time and the networks. -/
  canonical : String → ℤ → List String → Bytes
  /-- `base64.RawURLEncoding.DecodeString`. -/
  base64Decode : String → Option Bytes
  /-- `ed25519.Verify` of a public key, a message and a signature. -/
  ed25519Verify : Bytes → Bytes → Bytes → Bool
  /-- `Round(time.Minute)` of a `Duration`, as a text. -/
  minutes : ℤ → String
  /-- `net.ParseCIDR`. -/
  parser : CIDRParser
  /-- `sort.Slice` on networks of IPv4. -/
  sort4 : SortSlice Entry4
  /-- `sort.Slice` on networks of IPv6. -/
  sort6 : SortSlice Entry6
  /-- `nodeIDEncrypt`. -/
  encrypt : Bytes → Option Bytes
  /-- `nodeIDDecrypt`. -/
  decrypt : Bytes → Option Bytes
  /-- What was encrypted decrypts. -/
  decrypt_encrypt : ∀ {plain enc}, encrypt plain = some enc → decrypt enc = some plain

/-- What a manager is made with. -/
structure ListConfig where
  /-- `pubkey`; without one, signatures are not checked. -/
  pubkey : Option Bytes
  /-- `cacheFile`, empty for none. -/
  cacheFile : String

/-- `NewBypassManager`, as far as the key goes. -/
def newBypassManager (pubkeyHex : Bytes) (cacheFile : String) : Except String ListConfig :=
  if pubkeyHex ≠ [] then
    match ByteText.unhex pubkeyHex with
    | none => .error "bypass: invalid arbiter pubkey hex"
    | some b =>
      if b.length ≠ Discovery.publicKeySize then .error "bypass: invalid arbiter pubkey hex"
      else .ok ⟨some b, cacheFile⟩
  else .ok ⟨none, cacheFile⟩

theorem pubkey_of_new {pubkeyHex : Bytes} {cacheFile : String} {K : ListConfig}
    (h : newBypassManager pubkeyHex cacheFile = .ok K) (hne : pubkeyHex ≠ []) :
    K.pubkey = Discovery.keyOf pubkeyHex ∧ K.pubkey.isSome = true := by
  rw [newBypassManager, if_pos hne] at h
  rw [Discovery.keyOf]
  split at h
  · cases h
  · rename_i b hb
    split at h
    · cases h
    · rename_i hlen
      rw [← Except.ok.inj h, hb]
      exact ⟨(Option.filter_some_pos (by simpa using hlen)).symm, rfl⟩

section

variable (E : ListEnv) (K : ListConfig)

/-- `ParseCIDRs`. -/
def ListEnv.parse (cidrs : List String) : CIDRSet := parseCIDRs E.parser E.sort4 E.sort6 cidrs

/-- The signature of a document is right under a key. -/
def ListEnv.signedBy (key : Bytes) (doc : SignedCIDRList) : Bool :=
  match E.base64Decode doc.sig with
  | none => false
  | some sig => E.ed25519Verify key (E.canonical doc.country doc.ts doc.cidrs) sig

/-- What is checked of the signature of a document. -/
def signatureOk (doc : SignedCIDRList) : Bool :=
  match K.pubkey with
  | none => true
  | some key => E.signedBy key doc

/-- Seconds from the year 1 to 1970. -/
def unixToInternal : ℤ := 62135596800

/-- How old a document is: `time.Since(time.Unix(ts, 0))`.  `Time` counts its seconds from the
year 1 in 64 bits.  The result is not cut off at the ends of `Duration`, which does not matter for
the comparison that follows. -/
def age (now ts : ℤ) : ℤ :=
  now - (GoInt.add .w64 ts unixToInternal - unixToInternal) * 1000000000

/-- `verifyCIDR`. -/
def verifyCIDR (now : ℤ) (data : Bytes) : Except String CIDRSet :=
  match E.unmarshal data with
  | none => .error ("parse: " ++ E.unmarshalError data)
  | some doc =>
    if !signatureOk E K doc then .error "signature verification failed"
    else if maxAge < age now doc.ts then
      .error ("CIDR list too old (" ++ E.minutes (age now doc.ts) ++ ")")
    else .ok (E.parse doc.cidrs)

/-- A document passes. -/
structure Accepted (now : ℤ) (data : Bytes) (doc : SignedCIDRList) : Prop where
  /-- It can be read. -/
  parsed : E.unmarshal data = some doc
  /-- It is signed. -/
  signed : signatureOk E K doc = true
  /-- It is not too old. -/
  young : age now doc.ts ≤ maxAge

variable {E K} {now : ℤ} {data : Bytes} {doc : SignedCIDRList}

theorem Accepted.eq {doc' : SignedCIDRList} (h : Accepted E K now data doc)
    (h' : E.unmarshal data = some doc') : doc = doc' :=
  Option.some_inj.mp (h.parsed.symm.trans h')

theorem Accepted.verifyCIDR_eq (h : Accepted E K now data doc) :
    verifyCIDR E K now data = .ok (E.parse doc.cidrs) := by
  rw [verifyCIDR, h.parsed]
  dsimp only
  rw [h.signed, Bool.not_true, if_neg Bool.false_ne_true, if_neg (not_lt.mpr h.young)]

theorem exists_accepted {set : CIDRSet} (h : verifyCIDR E K now data = .ok set) :
    ∃ doc, Accepted E K now data doc ∧ set = E.parse doc.cidrs := by
  rw [verifyCIDR] at h
  split at h
  · cases h
  · rename_i doc hdoc
    split at h
    · cases h
    · rename_i hsig
      rw [Bool.not_eq_true', Bool.not_eq_false] at hsig
      split at h
      · cases h
      · rename_i hage
        exact ⟨doc, ⟨hdoc, hsig, not_lt.mp hage⟩, (Except.ok.inj h).symm⟩

theorem exists_error_of_old (hdoc : E.unmarshal data = some doc) (hold : maxAge < age now doc.ts) :
    ∃ err, verifyCIDR E K now data = .error err := by
  cases h : verifyCIDR E K now data with
  | error err => exact ⟨err, rfl⟩
  | ok set =>
    obtain ⟨doc', hacc, -⟩ := exists_accepted h
    have hyoung := hacc.young
    rw [hacc.eq hdoc] at hyoung
    omega

end

/-! ## The manager -/

/-- `normalInterval`, in nanoseconds. -/
def normalInterval : ℤ := 30 * 60 * 1000000000

/-- `retryInterval`, in nanoseconds. -/
def retryInterval : ℤ := 2 * 60 * 1000000000

/-- `cidrSource`. -/
inductive CIDRSource where
  | none | cached | fresh
deriving DecidableEq

/-- `CIDRStatus`. -/
def CIDRSource.status : CIDRSource → String
  | .none => "none"
  | .cached => "cached"
  | .fresh => "fresh"

/-- A request of `fetchCIDR`. -/
structure CIDRRequest where
  /-- The URL. -/
  url : String
  /-- The header `X-Session`. -/
  session : String
deriving DecidableEq

/-- The request to a node. -/
def cidrRequest (token myIP exitURL : String) : CIDRRequest where
  url := exitURL ++ "/api/bypass/cidr" ++ if myIP ≠ "" then "?ip=" ++ myIP else ""
  session := token

/-- What a refresh reads when it begins. -/
structure Settings where
  /-- `exitURLs`. -/
  exitURLs : List String
  /-- `token`. -/
  token : String
  /-- `myIP`. -/
  myIP : String

/-- The requests that are to be made: none without a token. -/
def Settings.requests (s : Settings) : List CIDRRequest :=
  if s.token = "" then [] else s.exitURLs.map (cidrRequest s.token s.myIP)

/-- A request, and its answer. -/
structure Asked where
  /-- The request. -/
  request : CIDRRequest
  /-- When it was answered. -/
  now : ℤ
  /-- What `fetchCIDR` returned. -/
  body : Option Bytes

/-- Nothing came that passes. -/
def Asked.Rejected (E : ListEnv) (K : ListConfig) (a : Asked) : Prop :=
  ∀ data doc, a.body = some data → ¬ Accepted E K a.now data doc

/-- Where the goroutine of `Start` is. -/
inductive RefreshPc where
  /-- `Start` has not been called. -/
  | off
  /-- Waiting for the ticker. -/
  | waiting
  /-- Asking the first of these nodes, with what was read at the beginning. -/
  | asking (token myIP : String) (urls : List String)
  /-- A document has passed at this time, and the lock is yet to be taken. -/
  | applying (data : Bytes) (set : CIDRSet) (now : ℤ)
  /-- Before `persist`. -/
  | persisting (data : Bytes)
  /-- `os.WriteFile` has opened the file and is about to write the encrypted document. -/
  | writing (data enc : Bytes)
  /-- Before `cidrSource` is stored. -/
  | storing

/-- It waits for the ticker. -/
def RefreshPc.waits : RefreshPc → Bool
  | .waiting => true
  | _ => false

theorem RefreshPc.eq_of_waits {pc : RefreshPc} (h : pc.waits = true) : pc = .waiting := by
  cases pc with
  | waiting => rfl
  | _ => exact absurd h Bool.false_ne_true

/-- What the other goroutines see. -/
structure InForce where
  /-- `cidrs`. -/
  cidrs : Option CIDRSet
  /-- `country`. -/
  country : String
  /-- `cidrSource`. -/
  source : CIDRSource

/-- The manager and its file. -/
structure Lists extends Settings where
  /-- `cidrs`, `country` and `cidrSource`. -/
  inForce : InForce
  /-- The goroutine. -/
  pc : RefreshPc
  /-- `interval`. -/
  interval : ℤ
  /-- The content of the file, if there is one. -/
  file : Option Bytes
  /-- Record: the document in force, and when it was checked. -/
  basis : Option (Bytes × ℤ)
  /-- Record: the document that the file has completely. -/
  saved : Option Bytes
  /-- Record: what was in force when the last refresh began. -/
  prior : InForce
  /-- Record: what the last refresh found when it began. -/
  found : Settings
  /-- Record: what the last refresh has asked so far. -/
  asked : List Asked
  /-- Record: what the last refresh returned, if it has. -/
  result : Option Bool
  /-- Record: whether some refresh since `Start` returned true. -/
  succeeded : Bool

namespace Lists

/-- `NewBypassManager`, with the file that it finds. -/
def new (urls : List String) (file saved : Option Bytes) : Lists where
  exitURLs := urls.map Discovery.trimSlashes
  token := ""
  myIP := ""
  inForce := ⟨none, "", .none⟩
  pc := .off
  interval := normalInterval
  file := file
  basis := none
  saved := saved
  prior := ⟨none, "", .none⟩
  found := ⟨[], "", ""⟩
  asked := []
  result := none
  succeeded := false

/-- `refresh` begins. -/
def beginRound (m : Lists) : Lists :=
  { m with prior := m.inForce, found := m.toSettings, asked := [], result := none }

/-- `refresh` returns. -/
def finish (m : Lists) (ok : Bool) : Lists :=
  { m with
    pc := .waiting
    interval := if ok then normalInterval else retryInterval
    result := some ok
    succeeded := m.succeeded || ok }

/-- The loop of `refresh` goes on with these nodes. -/
def ask (m : Lists) (token myIP : String) : List String → Lists
  | [] => m.finish false
  | url :: urls => { m with pc := .asking token myIP (url :: urls) }

/-- The networks and the country of a document are put in force. -/
def assign (E : ListEnv) (m : Lists) (data : Bytes) (set : CIDRSet) (now : ℤ) : Lists :=
  { m with
    inForce := ⟨some set, E.unmarshalCountry data, m.inForce.source⟩
    basis := some (data, now) }

/-- `atomic.StoreInt32(&m.cidrSource, …)`. -/
def storeSource (m : Lists) (source : CIDRSource) : Lists :=
  { m with inForce := { m.inForce with source := source } }

/-- `loadCached`. -/
def loadCached (E : ListEnv) (K : ListConfig) (now : ℤ) (m : Lists) : Lists :=
  if K.cacheFile = "" then m
  else
    match m.file with
    | none => m
    | some enc =>
      let plain := (E.decrypt enc).getD enc
      match verifyCIDR E K now plain with
      | .error _ => m
      | .ok set => (m.assign E plain set now).storeSource .cached

/-- What happens. -/
inductive Event where
  /-- `SetToken`. -/
  | setToken (token : String)
  /-- `SetMyIP`. -/
  | setMyIP (ip : String)
  /-- `SetNodes`. -/
  | setNodes (urls : List String)
  /-- `Start`; the goroutine that it starts calls `refresh` at once. -/
  | start (now : ℤ)
  /-- `refresh` is called. -/
  | refresh
  /-- `fetchCIDR` returns, and what it returned is checked. -/
  | answer (now : ℤ) (body : Option Bytes)
  /-- The lock is taken. -/
  | assign
  /-- `persist` fails before the file is open. -/
  | fail
  /-- The file is opened. -/
  | open
  /-- As many bytes are written. -/
  | write (k : ℕ)
  /-- `cidrSource` is stored. -/
  | store
  /-- The program ends and starts again, with these nodes. -/
  | restart (urls : List String)

/-- One step. -/
def step (E : ListEnv) (K : ListConfig) (m : Lists) (e : Event) : Option Lists :=
  match e, m.pc with
  | .setToken token, _ => some { m with token := token }
  | .setMyIP ip, _ => some { m with myIP := ip }
  | .setNodes urls, _ => some { m with exitURLs := urls.map Discovery.trimSlashes }
  | .start now, .off => some { m.loadCached E K now with pc := .waiting }
  | .refresh, .waiting =>
    if m.token = "" then some (m.beginRound.finish false)
    else some (m.beginRound.ask m.token m.myIP m.exitURLs)
  | .answer now body, .asking token myIP (url :: urls) =>
    let m : Lists := { m with asked := m.asked ++ [⟨cidrRequest token myIP url, now, body⟩] }
    match body with
    | none => some (m.ask token myIP urls)
    | some data =>
      match verifyCIDR E K now data with
      | .error _ => some (m.ask token myIP urls)
      | .ok set => some { m with pc := .applying data set now }
  | .assign, .applying data set now =>
    some { m.assign E data set now with
      pc := if K.cacheFile = "" then .storing else .persisting data }
  | .fail, .persisting _ => some { m with pc := .storing }
  | .open, .persisting data =>
    (E.encrypt data).map fun enc ↦
      { m with file := some [], saved := none, pc := .writing data enc }
  | .write k, .writing data enc =>
    if k ≤ enc.length then
      some { m with
        file := some (enc.take k)
        saved := if k = enc.length then some data else none
        pc := .storing }
    else none
  | .store, .storing => some ((m.storeSource .fresh).finish true)
  | .restart urls, _ => some (new urls m.file m.saved)
  | _, _ => none

/-! ## What holds in every run -/

section

variable (E : ListEnv) (K : ListConfig)

/-- What is in force is what its document has. -/
def Founded (m : Lists) : Prop :=
  match m.basis with
  | none => m.inForce.cidrs = none ∧ m.inForce.country = ""
  | some (data, now) => ∃ doc, Accepted E K now data doc ∧
      m.inForce.cidrs = some (E.parse doc.cidrs) ∧ m.inForce.country = doc.country

/-- The requests so far are the first of those that are to be made. -/
def Opened (m : Lists) (rest : List CIDRRequest) : Prop :=
  m.found.requests = m.asked.map (·.request) ++ rest

/-- The last request got this document, which passed, and no request before it got any. -/
def Found (m : Lists) (data : Bytes) (now : ℤ) : Prop :=
  (∃ doc, Accepted E K now data doc) ∧ (∃ rest, m.Opened rest) ∧
    ∃ before request, m.asked = before ++ [⟨request, now, some data⟩] ∧
      ∀ a ∈ before, a.Rejected E K

/-- The document that was found is in force, but has not been stored as fresh yet. -/
def Taken (m : Lists) (data : Bytes) : Prop :=
  ∃ now, m.Found E K data now ∧ m.basis = some (data, now)

/-- The source says whether anything is in force. -/
def Told (m : Lists) : Prop := m.inForce.source = .none ↔ m.basis = none

/-- What holds where the goroutine is. -/
def Here (m : Lists) : Prop :=
  match m.pc with
  | .off => m.basis = none ∧ m.Told ∧ m.result = none
  | .waiting => m.Told ∧
      match m.result with
      | none => True
      | some true => m.interval = normalInterval ∧ m.inForce.source = .fresh ∧
          ∃ data, m.Taken E K data
      | some false => m.interval = retryInterval ∧ m.inForce = m.prior ∧ m.Opened [] ∧
          ∀ a ∈ m.asked, a.Rejected E K
  | .asking token myIP urls => m.Told ∧ m.inForce = m.prior ∧
      m.Opened (urls.map (cidrRequest token myIP)) ∧ ∀ a ∈ m.asked, a.Rejected E K
  | .applying data set now => m.Told ∧ m.Found E K data now ∧
      verifyCIDR E K now data = .ok set
  | .persisting data => m.Taken E K data
  | .writing data enc => m.Taken E K data ∧ E.encrypt data = some enc
  | .storing => ∃ data, m.Taken E K data

/-- What holds in every state, wherever the goroutine is. -/
structure Sound (m : Lists) : Prop where
  /-- Of what is in force. -/
  founded : m.Founded E K
  /-- Nothing is called loaded that is not. -/
  told_none : m.basis = none → m.inForce.source = .none
  /-- Nothing is called fresh that is not. -/
  fresh_iff : m.inForce.source = .fresh ↔ m.succeeded = true
  /-- What the file has completely can be read, and has passed once. -/
  kept : ∀ data, m.saved = some data → ∃ enc now doc, m.file = some enc ∧
    E.encrypt data = some enc ∧ Accepted E K now data doc

/-- What holds in every state. -/
structure Inv (m : Lists) : Prop extends Sound E K m where
  /-- Of the goroutine. -/
  here : m.Here E K

variable {E K} {m m' : Lists}

variable {request : CIDRRequest} {urls : List String}

theorem rejected_none {now : ℤ} :
    Asked.Rejected E K ⟨request, now, none⟩ :=
  fun _ _ h ↦ nomatch h

theorem rejected_error {now : ℤ} {data : Bytes} {err : String}
    (h : verifyCIDR E K now data = .error err) : Asked.Rejected E K ⟨request, now, some data⟩ := by
  rintro _ doc ⟨⟩ hacc
  rw [hacc.verifyCIDR_eq] at h
  cases h

theorem founded_assign {data : Bytes} {set : CIDRSet} {now : ℤ}
    (h : verifyCIDR E K now data = .ok set) : (m.assign E data set now).Founded E K := by
  obtain ⟨doc, hacc, rfl⟩ := exists_accepted h
  exact ⟨doc, hacc, rfl, E.country_eq hacc.parsed⟩

theorem inv_new {file saved : Option Bytes}
    (hkept : ∀ data, saved = some data → ∃ enc now doc, file = some enc ∧
      E.encrypt data = some enc ∧ Accepted E K now data doc) :
    (new urls file saved).Inv E K where
  founded := ⟨rfl, rfl⟩
  told_none _ := rfl
  fresh_iff := by simp [new]
  kept := hkept
  here := ⟨rfl, by simp [Told, new], rfl⟩

/-- `Start` puts the document of the file in force, or nothing. -/
theorem Inv.loadCached (h : m.Inv E K) (hpc : m.pc = .off) (now : ℤ) :
    Inv E K { m.loadCached E K now with pc := .waiting } := by
  have hhere := h.here
  rw [Here, hpc] at hhere
  obtain ⟨hbasis, htold, hres⟩ := hhere
  have hsame : Inv E K { m with pc := .waiting } :=
    { h with here := by rw [Here]; dsimp only; rw [hres]; exact ⟨htold, trivial⟩ }
  have hfresh : m.succeeded ≠ true := by
    rw [Ne, ← h.fresh_iff, htold.mpr hbasis]
    exact fun h ↦ nomatch h
  rw [Lists.loadCached]
  split
  · exact hsame
  · split
    · exact hsame
    · dsimp only
      split
      · exact hsame
      · rename_i set hset
        refine ⟨⟨founded_assign (m := m) hset, ?_, ?_, h.kept⟩, ?_⟩
        · exact fun h ↦ nomatch h
        · exact ⟨fun h ↦ (nomatch h), fun h ↦ absurd h hfresh⟩
        · rw [Here]
          dsimp only [storeSource, assign]
          rw [hres]
          exact ⟨⟨fun h ↦ (nomatch h), fun h ↦ (nomatch h)⟩, trivial⟩

/-- A refresh goes on to the next node, or fails. -/
theorem Sound.ask (h : m.Sound E K) (token myIP : String) (urls : List String) (htold : m.Told)
    (hprior : m.inForce = m.prior) (hopen : m.Opened (urls.map (cidrRequest token myIP)))
    (hrej : ∀ a ∈ m.asked, a.Rejected E K) : (m.ask token myIP urls).Inv E K := by
  cases urls with
  | nil =>
    exact { h with
      fresh_iff := h.fresh_iff.trans (by simp [Lists.ask, finish])
      here := ⟨htold, rfl, hprior, hopen, hrej⟩ }
  | cons url urls => exact { h with here := ⟨htold, hprior, hopen, hrej⟩ }

theorem Opened.next {rest : List CIDRRequest} (h : m.Opened (request :: rest)) (now : ℤ)
    (body : Option Bytes) :
    Opened { m with asked := m.asked ++ [⟨request, now, body⟩] } rest := by
  rw [Opened] at h ⊢
  simpa using h

/-- A node that is asked answers. -/
theorem Inv.answer {token myIP url : String} {now : ℤ} {body : Option Bytes} (h : m.Inv E K)
    (hpc : m.pc = .asking token myIP (url :: urls)) (hm : m.step E K (.answer now body) = some m') :
    m'.Inv E K := by
  have hhere := h.here
  rw [Here, hpc] at hhere
  obtain ⟨htold, hprior, hopen, hrej⟩ := hhere
  have hnext := hopen.next now body
  have hon (hlast : Asked.Rejected E K ⟨cidrRequest token myIP url, now, body⟩) :
      Inv E K (Lists.ask { m with asked := m.asked ++ [⟨cidrRequest token myIP url, now, body⟩] }
        token myIP urls) := by
    have hsound : Sound E K
        { m with asked := m.asked ++ [⟨cidrRequest token myIP url, now, body⟩] } :=
      { h.toSound with }
    refine hsound.ask token myIP urls htold hprior hnext fun a ha ↦ ?_
    rcases List.mem_append.mp ha with ha | ha
    · exact hrej a ha
    · exact List.mem_singleton.mp ha ▸ hlast
  rw [step.eq_def, hpc] at hm
  dsimp only at hm
  split at hm
  · exact Option.some_inj.mp hm ▸ hon rejected_none
  · rename_i data
    split at hm
    · rename_i herr
      exact Option.some_inj.mp hm ▸ hon (rejected_error herr)
    · rename_i set hset
      obtain ⟨doc, hacc, -⟩ := exists_accepted hset
      exact Option.some_inj.mp hm ▸ { h with
        here := ⟨htold, ⟨⟨doc, hacc⟩, ⟨_, hnext⟩, _, _, rfl, hrej⟩, hset⟩ }

/-- One step keeps the invariant. -/
theorem inv_step {e : Event} (h : m.Inv E K) (hm : m.step E K e = some m') : m'.Inv E K := by
  have hhere := h.here
  have hstep := hm
  rw [step.eq_def] at hm
  split at hm
  · exact Option.some_inj.mp hm ▸ { h with }
  · exact Option.some_inj.mp hm ▸ { h with }
  · exact Option.some_inj.mp hm ▸ { h with }
  · rename_i hpc
    exact Option.some_inj.mp hm ▸ h.loadCached hpc _
  · rename_i hpc
    rw [Here, hpc] at hhere
    have htold := hhere.1
    have hbegun : m.beginRound.Sound E K := { h.toSound with }
    split at hm
    · rename_i htok
      exact Option.some_inj.mp hm ▸ hbegun.ask "" "" [] htold rfl (if_pos htok)
        (by simp [beginRound])
    · rename_i htok
      exact Option.some_inj.mp hm ▸ hbegun.ask _ _ _ htold rfl (if_neg htok) (by simp [beginRound])
  · rename_i hpc
    exact h.answer hpc hstep
  · rename_i data set now hpc
    rw [Here, hpc] at hhere
    obtain ⟨-, hfound, hset⟩ := hhere
    refine Option.some_inj.mp hm ▸ ⟨⟨founded_assign (m := m) hset, fun h ↦ (nomatch h), h.fresh_iff,
      h.kept⟩, ?_⟩
    by_cases hcache : K.cacheFile = ""
    · rw [Here, if_pos hcache]
      exact ⟨data, now, hfound, rfl⟩
    · rw [Here, if_neg hcache]
      exact ⟨now, hfound, rfl⟩
  · rename_i data hpc
    rw [Here, hpc] at hhere
    exact Option.some_inj.mp hm ▸ { h with here := ⟨data, hhere⟩ }
  · rename_i data hpc
    rw [Here, hpc] at hhere
    obtain ⟨enc, henc, rfl⟩ := Option.map_eq_some_iff.mp hm
    exact { h with kept := fun _ h ↦ (nomatch h), here := ⟨hhere, henc⟩ }
  · rename_i k data enc hpc
    rw [Here, hpc] at hhere
    obtain ⟨htaken, henc⟩ := hhere
    split at hm
    · refine Option.some_inj.mp hm ▸
        { h with kept := fun saved hsaved ↦ ?_, here := ⟨data, htaken⟩ }
      dsimp only at hsaved ⊢
      split at hsaved
      · rename_i hk
        obtain ⟨now, ⟨⟨doc, hacc⟩, -⟩, -⟩ := htaken
        rw [← Option.some_inj.mp hsaved, hk, List.take_length]
        exact ⟨enc, now, doc, rfl, henc, hacc⟩
      · cases hsaved
    · cases hm
  · rename_i hpc
    rw [Here, hpc] at hhere
    obtain ⟨data, now, hfound, hbasis⟩ := hhere
    refine Option.some_inj.mp hm ▸ { h with told_none := ?_, fresh_iff := ?_, here := ?_ }
    · exact fun hnone ↦ nomatch hbasis.symm.trans hnone
    · simp [storeSource, finish]
    · refine ⟨⟨fun h ↦ (nomatch h), fun hnone ↦ nomatch hbasis.symm.trans hnone⟩, rfl, rfl,
        data, now, hfound, hbasis⟩
  · exact Option.some_inj.mp hm ▸ inv_new h.kept
  · cases hm

theorem inv_of_exec {file : Option Bytes} {es : List Event}
    (h : exec (step E K) (new urls file none) es = some m) : m.Inv E K :=
  Trace.inv_of_exec (P := Inv E K) (fun hinv hm ↦ inv_step hinv hm)
    (inv_new fun _ h ↦ by cases h) h

/-- **What is in force is signed.**  If the manager has a key, then after any run either nothing is
in force, or the networks and the country are those of one document, whose signature is right under
that key, and which was not older than 25 hours when it was checked.  `CIDRStatus` says "fresh" if
and only if some refresh of this session has succeeded, and between two refreshes it says "none" if
and only if nothing is in force. -/
theorem list_signed {pubkeyHex : Bytes} {cacheFile : String} {urls : List String}
    {file : Option Bytes} {es : List Event} (hkey : pubkeyHex ≠ [])
    (hK : newBypassManager pubkeyHex cacheFile = .ok K)
    (h : exec (step E K) (new urls file none) es = some m) :
    ((m.basis = none ∧ m.inForce.cidrs = none ∧ m.inForce.country = "") ∨
      ∃ data now doc key, m.basis = some (data, now) ∧ E.unmarshal data = some doc ∧
        Discovery.keyOf pubkeyHex = some key ∧ E.signedBy key doc = true ∧
        age now doc.ts ≤ maxAge ∧ m.inForce.cidrs = some (E.parse doc.cidrs) ∧
        m.inForce.country = doc.country) ∧
    (m.inForce.source.status = "fresh" ↔ m.succeeded = true) ∧
    (m.pc = .waiting → (m.inForce.source.status = "none" ↔ m.inForce.cidrs = none)) := by
  have hinv := inv_of_exec h
  obtain ⟨hpub, hsome⟩ := pubkey_of_new hK hkey
  obtain ⟨key, hk⟩ := Option.isSome_iff_exists.mp hsome
  have hfounded := hinv.founded
  rw [Founded] at hfounded
  refine ⟨?_, ?_, fun hpc ↦ ?_⟩
  · split at hfounded
    · rename_i hnone
      exact .inl ⟨hnone, hfounded⟩
    · rename_i data now hbasis
      obtain ⟨doc, hacc, hcidrs, hcountry⟩ := hfounded
      have hsig := hacc.signed
      rw [signatureOk, hk] at hsig
      exact .inr ⟨data, now, doc, key, hbasis, hacc.parsed, hpub ▸ hk, hsig, hacc.young, hcidrs,
        hcountry⟩
  · rw [← hinv.fresh_iff]
    cases m.inForce.source <;> decide
  · have hhere := hinv.here
    rw [Here, hpc] at hhere
    have hnone : m.inForce.source.status = "none" ↔ m.inForce.source = .none := by
      cases m.inForce.source <;> decide
    have htold : m.inForce.source = .none ↔ m.basis = none := hhere.1
    rw [hnone, htold]
    split at hfounded
    · rename_i hbasis
      simp [hbasis, hfounded.1]
    · rename_i hbasis
      obtain ⟨doc, -, hcidrs, -⟩ := hfounded
      simp [hbasis, hcidrs]

/-- One document, that of country RU, with the only signature that is right. -/
def demoEnv : ListEnv where
  unmarshal data := if data = [1] then some ⟨"RU", 1700000000, [], "s"⟩ else none
  unmarshalError _ := "unexpected end of JSON input"
  unmarshalCountry data := if data = [1] then "RU" else ""
  country_eq := by
    intro data doc h
    split_ifs at h with hdata
    · rw [if_pos hdata, ← Option.some_inj.mp h]
  canonical _ _ _ := [2]
  base64Decode s := if s = "s" then some [3] else none
  ed25519Verify key msg sig := key = List.replicate 32 0 ∧ msg = [2] ∧ sig = [3]
  minutes _ := "26h0m0s"
  parser := ⟨fun _ ↦ none, fun h ↦ nomatch h⟩
  sort4 := .insertion
  sort6 := .insertion
  encrypt plain := some (0 :: plain)
  decrypt enc := if enc.head? = some 0 then some enc.tail else none
  decrypt_encrypt := by
    intro plain enc h
    rw [← Option.some_inj.mp h]
    rfl

/-- The key of zeros, in hexadecimal. -/
def demoHex : Bytes := List.replicate 64 48

/-- A manager with that key. -/
def demoConfig : ListConfig := ⟨some (List.replicate 32 0), "cidrs.json"⟩

/-- The first of two nodes has nothing, and the second has the document, an hour after it was made,
which is put in force and saved. -/
def demoRun : List Event :=
  [.start 0, .setToken "t", .refresh, .answer 1700003600000000000 none,
    .answer 1700003600000000000 (some [1]), .assign, .open, .write 2, .store]

/-- What `demoRun` comes to. -/
theorem exec_demoRun :
    ∃ m, exec (step demoEnv demoConfig) (new ["a/", "b"] none none) demoRun = some m ∧
      m.pc = .waiting ∧ m.result = some true ∧ m.saved = some [1] ∧
      m.basis = some ([1], 1700003600000000000) := by
  have h : (exec (step demoEnv demoConfig) (new ["a/", "b"] none none) demoRun).any
      (fun m ↦ m.pc.waits && m.result == some true && m.saved == some [1] &&
        m.basis == some ([1], 1700003600000000000)) = true := by
    decide +kernel
  rcases hm : exec (step demoEnv demoConfig) (new ["a/", "b"] none none) demoRun with _ | m
  · rw [hm] at h
    cases h
  · rw [hm, Option.any_some] at h
    simp only [Bool.and_eq_true, beq_iff_eq] at h
    obtain ⟨⟨⟨hpc, hres⟩, hsaved⟩, hbasis⟩ := h
    exact ⟨m, rfl, RefreshPc.eq_of_waits hpc, hres, hsaved, hbasis⟩

theorem list_signed_second_node :
    ∃ m doc, exec (step demoEnv demoConfig) (new ["a/", "b"] none none) demoRun = some m ∧
      demoEnv.unmarshal [1] = some doc ∧ age 1700003600000000000 doc.ts ≤ maxAge ∧
      m.inForce.cidrs = some (demoEnv.parse doc.cidrs) ∧ m.inForce.country = doc.country := by
  obtain ⟨m, hm, -, -, -, hbasis⟩ := exec_demoRun
  have hK : newBypassManager demoHex "cidrs.json" = .ok demoConfig := by rfl
  obtain ⟨hlist, -⟩ := list_signed (by decide) hK hm
  rcases hlist with ⟨hnone, -⟩ | ⟨data, now, doc, key, hb, hdoc, -, -, hage, hcidrs, hcountry⟩
  · exact absurd (hbasis.symm.trans hnone) (by simp)
  · obtain ⟨rfl, rfl⟩ := Prod.mk.inj (Option.some_inj.mp (hbasis.symm.trans hb))
    exact ⟨m, doc, hm, hdoc, hage, hcidrs, hcountry⟩

/-- **The first document that passes is taken.**  When a refresh has returned, its requests were
those to the nodes that it found when it began, in their order and with the token and the address
that it found.  If it returned true, it stopped at the first that was answered by a document that
passes, which is now in force.  If it returned false, none was, every node has been asked, and what
is in force is what was when it began; the next refresh is then due in two minutes instead of 30.
Without a token nobody is asked, and it returns false. -/
theorem refresh_first {urls : List String} {file : Option Bytes} {es : List Event} {ok : Bool}
    (h : exec (step E K) (new urls file none) es = some m) (hpc : m.pc = .waiting)
    (hres : m.result = some ok) :
    (m.found.token = "" → ok = false ∧ m.asked = []) ∧
    (m.found.token ≠ "" → ∃ rest,
      m.found.exitURLs.map (cidrRequest m.found.token m.found.myIP) =
        m.asked.map (·.request) ++ rest ∧ (ok = false → rest = [])) ∧
    (ok = true → m.interval = normalInterval ∧ ∃ before request now data doc,
      m.asked = before ++ [⟨request, now, some data⟩] ∧ (∀ a ∈ before, a.Rejected E K) ∧
      Accepted E K now data doc ∧ m.inForce = ⟨some (E.parse doc.cidrs), doc.country, .fresh⟩) ∧
    (ok = false → m.interval = retryInterval ∧ (∀ a ∈ m.asked, a.Rejected E K) ∧
      m.inForce = m.prior) := by
  have hinv := inv_of_exec h
  have hhere := hinv.here
  rw [Here, hpc] at hhere
  dsimp only at hhere
  rw [hres] at hhere
  obtain ⟨-, hhere⟩ := hhere
  have hnone {rest : List CIDRRequest} (hopen : m.Opened rest) (htok : m.found.token = "") :
      m.asked = [] := by
    rw [Opened, Settings.requests, if_pos htok] at hopen
    exact List.map_eq_nil_iff.mp (List.append_eq_nil_iff.mp hopen.symm).1
  have hsome {rest : List CIDRRequest} (hopen : m.Opened rest) (htok : m.found.token ≠ "") :
      m.found.exitURLs.map (cidrRequest m.found.token m.found.myIP) =
        m.asked.map (·.request) ++ rest := by
    rwa [Opened, Settings.requests, if_neg htok] at hopen
  cases ok with
  | false =>
    obtain ⟨hint, hprior, hopen, hrej⟩ := hhere
    exact ⟨fun htok ↦ ⟨rfl, hnone hopen htok⟩, fun htok ↦ ⟨[], hsome hopen htok, fun _ ↦ rfl⟩,
      fun h ↦ absurd h Bool.false_ne_true, fun _ ↦ ⟨hint, hrej, hprior⟩⟩
  | true =>
    obtain ⟨hint, hfresh, data, now, ⟨-, ⟨rest, hopen⟩, before, request, hasked, hrej⟩, hbasis⟩ :=
      hhere
    have hfounded := hinv.founded
    rw [Founded, hbasis] at hfounded
    obtain ⟨doc, hacc, hcidrs, hcountry⟩ := hfounded
    have hforce : m.inForce = ⟨some (E.parse doc.cidrs), doc.country, .fresh⟩ := by
      rw [← hcidrs, ← hcountry, ← hfresh]
    refine ⟨fun htok ↦ ?_, fun htok ↦ ⟨rest, hsome hopen htok, fun h ↦ absurd h.symm
      Bool.false_ne_true⟩, fun _ ↦ ⟨hint, before, request, now, data, doc, hasked, hrej, hacc,
      hforce⟩, fun h ↦ absurd h.symm Bool.false_ne_true⟩
    rw [hnone hopen htok] at hasked
    exact absurd hasked (by simp)

theorem refresh_first_second_node :
    ∃ m before request now data, m.asked = before ++ [⟨request, now, some data⟩] ∧
      exec (step demoEnv demoConfig) (new ["a/", "b"] none none) demoRun = some m ∧
      (∀ a ∈ before, a.Rejected demoEnv demoConfig) ∧ m.interval = normalInterval := by
  obtain ⟨m, hm, hpc, hres, -⟩ := exec_demoRun
  obtain ⟨-, -, hok, -⟩ := refresh_first hm hpc hres
  obtain ⟨hint, before, request, now, data, doc, hasked, hrej, -⟩ := hok rfl
  exact ⟨m, before, request, now, data, hasked, hm, hrej, hint⟩

/-- **What was saved is restored.**  If the last document that was to be saved has been written
completely, then after any run, and whatever the manager was doing, a restart puts it in force
again if it is not too old by then, and otherwise nothing. -/
theorem list_restored {urls : List String} {file : Option Bytes} {es : List Event} {data : Bytes}
    (hfile : K.cacheFile ≠ "") (h : exec (step E K) (new urls file none) es = some m)
    (hsaved : m.saved = some data) (urls' : List String) (now : ℤ) :
    ∃ doc m', E.unmarshal data = some doc ∧
      exec (step E K) m [.restart urls', .start now] = some m' ∧
      m'.inForce = if age now doc.ts ≤ maxAge then ⟨some (E.parse doc.cidrs), doc.country, .cached⟩
        else ⟨none, "", .none⟩ := by
  obtain ⟨enc, then', doc, hdisk, henc, hacc⟩ := (inv_of_exec h).kept data hsaved
  refine ⟨doc, _, hacc.parsed, rfl, ?_⟩
  have hload : (new urls' m.file m.saved).file = some enc := hdisk
  have hplain : (E.decrypt enc).getD enc = data := by
    rw [E.decrypt_encrypt henc, Option.getD_some]
  rw [Lists.loadCached, if_neg hfile, hload]
  dsimp only
  rw [hplain]
  split_ifs with hage
  · have hnow : Accepted E K now data doc := ⟨hacc.parsed, hacc.signed, hage⟩
    rw [hnow.verifyCIDR_eq, ← E.country_eq hacc.parsed]
    rfl
  · obtain ⟨err, herr⟩ := exists_error_of_old (K := K) hacc.parsed (not_le.mp hage)
    rw [herr]
    rfl

theorem list_restored_next_day :
    ∃ m m' doc, exec (step demoEnv demoConfig) (new ["a/", "b"] none none) demoRun = some m ∧
      exec (step demoEnv demoConfig) m [.restart ["c"], .start 1700086400000000000] =
        some m' ∧
      demoEnv.unmarshal [1] = some doc ∧
      m'.inForce = ⟨some (demoEnv.parse doc.cidrs), doc.country, .cached⟩ := by
  obtain ⟨m, hm, -, -, hsaved, -⟩ := exec_demoRun
  obtain ⟨doc, m', hdoc, hm', hforce⟩ := list_restored (by decide) hm hsaved ["c"]
    1700086400000000000
  have hts : doc.ts = 1700000000 := by
    rw [← Option.some_inj.mp (show some _ = some doc from hdoc)]
  have hage : age 1700086400000000000 doc.ts ≤ maxAge := by
    rw [hts]
    decide
  rw [if_pos hage] at hforce
  exact ⟨m, m', doc, hm, hm', hdoc, hforce⟩

end

end Lists

end TunnelCat.Bypass
