import TunnelCat.Lib.Pending
import TunnelCat.Mirror.Completeness

/-!
# Fetching chunks over shared connections

Hole punching is slow, so a mirror keeps the connections it has made to its peers, one for each
address, and every fetch of a chunk uses them.  Fetches run concurrently, and `connMu` is held only
for single accesses to the map.  Between them a fetch may find that another has been faster: it has
made a connection that it does not need, or it closes one that others are still using.  Besides, a
connection closes itself when nothing was read from it for five minutes, and nobody takes it out of
the map then: that is left to the next fetch that uses it and fails.

The state is the map and all the connections that were ever made, and one goroutine for each call of
`fetchChunk`, from its first candidate to the relay it falls back to.  What the network does — how a
punch ends, what a peer or the relay answers — is in the events, and nothing is assumed of it.

`fetches_sound` says what holds at every moment: a connection in the map leads to the address it is
filed under, and is open unless it has closed itself; a fetch asks the peer it means to ask; no
connection is forgotten — one that is open is in the map, or a fetch is about to put it there or to
close it; and a call returns exactly what `Env.fetchChunk` makes of the answers, so never a chunk
with another hash.  When no fetch is under way, there is one open connection for each address at
most.
-/

set_option autoImplicit false

open Function Trace

namespace TunnelCat.Mirror.Peers

/-! ## The fetches -/

/-- What a `MirrorManager` is set up with. -/
structure Config where
  /-- The hash function, as part of the environment of the mirror. -/
  env : Env
  /-- Whether `punchFn` is set. -/
  punchFn : Bool
  /-- Whether `relayFetch` is set. -/
  relayFetch : Bool

/-- A connection that was made with `NewMirrorConn`. -/
structure Made where
  /-- The peer it was punched to. -/
  addr : String
  /-- Whether a fetch has closed it. -/
  closed : Bool
  deriving DecidableEq

/-- The connections of a `MirrorManager`. -/
structure Conns where
  /-- `peerConns`, with the position of the connection among those that were made. -/
  peerConns : String → Option ℕ
  /-- All connections that were made. -/
  made : List Made
  /-- Which of them `readLoop` has closed, after `mirrorIdleTimeout`. -/
  idle : ℕ → Bool

/-- A connection is open: neither a fetch nor its read loop has closed it. -/
def Conns.Open (C : Conns) (i : ℕ) : Prop :=
  ∃ m, C.made[i]? = some m ∧ m.closed = false ∧ C.idle i = false

/-- A connection is closed. -/
def Conns.close (C : Conns) (i : ℕ) : Conns :=
  { C with made := C.made.modify i fun m ↦ { m with closed := true } }

/-- Where a `fetchChunk` is. -/
inductive Pc where
  /-- Before the next candidate, if there is one. -/
  | trying
  /-- `peerConn` has not found a connection, and punches. -/
  | punching (addr : String)
  /-- `peerConn` has made connection `i`, before it looks at the map again. -/
  | entering (addr : String) (i : ℕ)
  /-- Another fetch was faster, before the own connection is closed. -/
  | discarding (addr : String) (i existing : ℕ)
  /-- In `RequestChunk` of connection `i`. -/
  | requesting (addr : String) (i : ℕ)
  /-- `RequestChunk` has failed, before the connection is taken out of the map. -/
  | dropping (addr : String) (i : ℕ)
  /-- Before the connection is closed. -/
  | closing (addr : String) (i : ℕ)
  /-- No peer had the chunk, in `relayFetch`. -/
  | relaying
  /-- It has returned. -/
  | returned (result : Except String Bytes)

/-- A call of `fetchChunk`. -/
structure Fetch where
  /-- The hash of the chunk. -/
  hash : String
  /-- The candidates that are left. -/
  rest : List String
  /-- Where it is. -/
  pc : Pc
  /-- Record: what the candidates have answered; `none` is an error or a miss. -/
  answers : List (Option Bytes)
  /-- Record: what the relay has answered. -/
  relay : Option Bytes

/-- What the environment does in a step of a fetch. -/
inductive FetchEvent where
  /-- Nothing. -/
  | go
  /-- `punchFn` returns. -/
  | punched (err : Option String)
  /-- `RequestChunk` returns. -/
  | answered (result : Except String (Option Bytes))
  /-- `relayFetch` returns. -/
  | relayed (result : Except String Bytes)

/-- The candidate has no chunk to give. -/
def Fetch.skip (f : Fetch) : Fetch := { f with pc := .trying, answers := f.answers ++ [none] }

/-- `fetchChunk`, `fetchChunkFromPeer` and `peerConn`, up to the next access to the map or to a
connection. -/
def Fetch.step (K : Config) (C : Conns) (f : Fetch) (e : FetchEvent) : Option (Conns × Fetch) :=
  match f.pc, e with
  | .trying, .go =>
    match f.rest with
    | [] => some (C, { f with pc := .relaying })
    | addr :: rest =>
      match C.peerConns addr with
      | some i => some (C, { f with rest := rest, pc := .requesting addr i })
      | none => some (C, { f with rest := rest, pc := .punching addr })
  | .punching addr, .punched err =>
    -- without `punchFn`, or if it fails, the candidate is unreachable
    if K.punchFn && err.isNone then
      some ({ C with made := C.made ++ [⟨addr, false⟩] },
        { f with pc := .entering addr C.made.length })
    else some (C, f.skip)
  | .entering addr i, .go =>
    match C.peerConns addr with
    | some existing => some (C, { f with pc := .discarding addr i existing })
    | none =>
      some ({ C with peerConns := update C.peerConns addr (some i) },
        { f with pc := .requesting addr i })
  | .discarding addr i existing, .go =>
    some (C.close i, { f with pc := .requesting addr existing })
  | .requesting addr i, .answered (.error _) => some (C, { f with pc := .dropping addr i })
  | .requesting _ _, .answered (.ok none) => some (C, f.skip)
  | .requesting _ _, .answered (.ok (some data)) =>
    some (C, { f with
      answers := f.answers ++ [some data]
      pc := if K.env.chunkHashMatches data f.hash then .returned (.ok data) else .trying })
  | .dropping addr i, .go =>
    some ({ C with
      peerConns := if C.peerConns addr = some i then update C.peerConns addr none
        else C.peerConns }, { f with pc := .closing addr i })
  | .closing _ i, .go => some (C.close i, f.skip)
  | .relaying, .relayed result =>
    if !K.relayFetch then
      some (C, { f with
        pc := .returned (.error "no P2P peers and no relay fallback configured") })
    else
      match result with
      | .error err => some (C, { f with pc := .returned (.error ("relay fallback: " ++ err)) })
      | .ok data =>
        some (C, { f with
          relay := some data
          pc := if K.env.chunkHashMatches data f.hash then .returned (.ok data)
            else .returned (.error "relay fallback returned chunk with wrong hash") })
  | _, _ => none

/-- A mirror with the fetches it has started. -/
structure State where
  /-- The connections. -/
  conns : Conns
  /-- The calls of `fetchChunk`. -/
  fetches : List Fetch

/-- What can happen. -/
inductive Event where
  /-- `fetchChunk` is called, and `peerCandidates` returns. -/
  | fetchChunk (hash : String) (candidates : List String)
  /-- Call `k` goes on. -/
  | fetch (k : ℕ) (e : FetchEvent)
  /-- Connection `i` closes itself. -/
  | expire (i : ℕ)

/-- A mirror that has made no connection yet. -/
def new : State := ⟨⟨fun _ ↦ none, [], fun _ ↦ false⟩, []⟩

/-- One step. -/
def step (K : Config) (p : State) : Event → Option State
  | .fetchChunk hash candidates =>
    some { p with fetches := p.fetches ++ [⟨hash, candidates, .trying, [], none⟩] }
  | .fetch k e =>
    p.fetches[k]?.bind fun f ↦
      (f.step K p.conns e).map fun r ↦ ⟨r.1, p.fetches.set k r.2⟩
  | .expire i =>
    if i < p.conns.made.length then
      some { p with conns := { p.conns with idle := update p.conns.idle i true } }
    else none

/-! ## What a fetch is concerned with -/

/-- The connections a fetch is concerned with, with the addresses it takes them to lead to. -/
def Pc.refs : Pc → List (String × ℕ)
  | .entering addr i | .requesting addr i | .dropping addr i | .closing addr i => [(addr, i)]
  | .discarding addr i existing => [(addr, i), (addr, existing)]
  | _ => []

/-- The connection that a fetch has made and not yet shared. -/
def Pc.fresh : Pc → Option ℕ
  | .entering _ i | .discarding _ i _ => some i
  | _ => none

/-- The connection that a fetch is about to put into the map or to close. -/
def Pc.owed : Pc → Option ℕ
  | .entering _ i | .discarding _ i _ | .closing _ i => some i
  | _ => none

variable {K : Config} {C C' : Conns} {f f' : Fetch}

theorem Pc.owed_of_refs {pc : Pc} (h : pc.refs = []) : pc.owed = none := by
  cases pc <;> first | rfl | cases h

theorem Pc.fresh_of_owed {pc : Pc} (h : pc.owed = none) : pc.fresh = none := by
  cases pc <;> first | rfl | cases h

/-! ## The connections -/

/-- A connection is open, and nobody but fetch `k` has it. -/
def Own (p : State) (k i : ℕ) : Prop :=
  (∃ m, p.conns.made[i]? = some m ∧ m.closed = false) ∧
    (∀ addr, p.conns.peerConns addr ≠ some i) ∧
    ∀ (k' : ℕ) f', p.fetches[k']? = some f' → k' ≠ k → ∀ x ∈ f'.pc.refs, x.2 ≠ i

/-- What holds of the connections and of the fetches that share them. -/
structure Inv (p : State) : Prop where
  /-- What is in the map leads to the address it is filed under, and is not closed. -/
  filed : ∀ addr i, p.conns.peerConns addr = some i → p.conns.made[i]? = some ⟨addr, false⟩
  /-- A fetch knows where its connections lead. -/
  known : ∀ f ∈ p.fetches, ∀ x ∈ f.pc.refs, ∃ m, p.conns.made[x.2]? = some m ∧ m.addr = x.1
  /-- What a fetch has made and not shared is its own. -/
  fresh : ∀ (k : ℕ) f i, p.fetches[k]? = some f → f.pc.fresh = some i → Own p k i
  /-- What is about to be closed is not in the map. -/
  out : ∀ f ∈ p.fetches, ∀ addr i, f.pc = .closing addr i → p.conns.peerConns addr ≠ some i
  /-- What is open is in the map, or some fetch will put it there or close it. -/
  kept : ∀ (i : ℕ) m, p.conns.made[i]? = some m → m.closed = false →
    p.conns.peerConns m.addr = some i ∨ ∃ f ∈ p.fetches, f.pc.owed = some i

variable {p p' : State} {k : ℕ}

theorem getElem?_close (C : Conns) (i j : ℕ) :
    (C.close i).made[j]? =
      C.made[j]?.map fun m ↦ if i = j then { m with closed := true } else m := by
  rw [Conns.close, List.getElem?_modify]
  split <;> simp

/-- What is open afterwards was open, and is not the one that was closed. -/
theorem of_open_close {C : Conns} {i j : ℕ} {m : Made} (h : (C.close i).made[j]? = some m)
    (hopen : m.closed = false) : i ≠ j ∧ C.made[j]? = some m := by
  rw [getElem?_close] at h
  obtain ⟨n, hn, rfl⟩ := Option.map_eq_some_iff.mp h
  by_cases hij : i = j
  · rw [if_pos hij] at hopen
    cases hopen
  · rw [if_neg hij]
    exact ⟨hij, hn⟩

variable {i : ℕ} {addr : String} {answers : List (Option Bytes)} {hash : String}

theorem Pc.exists_ref_of_owed {pc : Pc} (h : pc.owed = some i) :
    ∃ addr, (addr, i) ∈ pc.refs := by
  cases pc <;> cases h <;> exact ⟨_, List.mem_cons_self ..⟩

/-- What one fetch has made is not among the connections of another. -/
theorem Inv.fresh_ne (h : Inv p) {k' : ℕ} {g : Fetch} (hg : p.fetches[k']? = some g)
    (hfresh : g.pc.fresh = some i) (hf : p.fetches[k]? = some f) (hne : k' ≠ k) {x : String × ℕ}
    (hx : x ∈ f.pc.refs) : x.2 ≠ i :=
  (h.fresh k' g i hg hfresh).2.2 k f hf hne.symm x hx

theorem Inv.made_of_fresh (h : Inv p) (hf : p.fetches[k]? = some f) (hfresh : f.pc.fresh = some i)
    (href : (addr, i) ∈ f.pc.refs) :
    p.conns.made[i]? = some ⟨addr, false⟩ := by
  obtain ⟨⟨m, hm, hopen⟩, -⟩ := h.fresh k f i hf hfresh
  obtain ⟨n, hn, haddr⟩ := h.known f (List.mem_of_getElem? hf) (addr, i) href
  obtain rfl : m = n := Option.some_inj.mp (hm.symm.trans hn)
  exact hm.trans (congrArg some (congrArg₂ Made.mk haddr hopen))

/-- What a step may do to the connections for the invariant to be kept. -/
structure Shift (C : Conns) (f : Fetch) (C' : Conns) (f' : Fetch) : Prop where
  /-- A connection stays as it is, or is closed by a fetch that owes it, and is not in the map. -/
  made : ∀ (j : ℕ) m, C.made[j]? = some m → C'.made[j]? = some m ∨
    C'.made[j]? = some { m with closed := true } ∧ f.pc.owed = some j ∧
      ∀ a, C.peerConns a ≠ some j
  /-- What gets into the map is what the fetch has made. -/
  entry : ∀ a i, C'.peerConns a = some i → C.peerConns a = some i ∨
    f.pc.fresh = some i ∧ (a, i) ∈ f.pc.refs ∧ C'.made = C.made
  /-- The fetch has its connections from before, from the map, or has made them. -/
  refs : ∀ x ∈ f'.pc.refs, x ∈ f.pc.refs ∨ C.peerConns x.1 = some x.2 ∨
    x.2 = C.made.length ∧ C'.made[x.2]? = some ⟨x.1, false⟩
  /-- What it has not shared is from before, or has just been made. -/
  fresh : ∀ i, f'.pc.fresh = some i → f.pc.fresh = some i ∧ C' = C ∨
    i = C.made.length ∧ (∃ m, C'.made[i]? = some m ∧ m.closed = false) ∧ C'.peerConns = C.peerConns
  /-- What it is about to close is not in the map. -/
  out : ∀ a i, f'.pc = .closing a i → C'.peerConns a ≠ some i
  /-- What is open is owed by the fetch, or in the map, or nothing has changed about it. -/
  kept : ∀ (j : ℕ) m, C'.made[j]? = some m → m.closed = false →
    f'.pc.owed = some j ∨ C'.peerConns m.addr = some j ∨ C.made[j]? = some m ∧
      f.pc.owed ≠ some j ∧ (C.peerConns m.addr = some j → C'.peerConns m.addr = some j)

/-- What a fetch has made is its own after such a step. -/
theorem Inv.shift_fresh (h : Inv p) (hf : p.fetches[k]? = some f) (hs : Shift p.conns f C' f')
    (k' : ℕ) (g : Fetch) (i : ℕ) (hg : (p.fetches.set k f')[k']? = some g)
    (hi : g.pc.fresh = some i) : Own ⟨C', p.fetches.set k f'⟩ k' i := by
  have hlt : ∀ {j : ℕ} {m : Made}, p.conns.made[j]? = some m → j < p.conns.made.length :=
    fun hm ↦ (List.getElem?_eq_some_iff.mp hm).1
  rcases (Pending.getElem?_set_eq_some hf).mp hg with ⟨rfl, rfl⟩ | ⟨hne, hold⟩
  · have hothers : ∀ (k'' : ℕ) g', (p.fetches.set k' g)[k'']? = some g' → k'' ≠ k' →
        p.fetches[k'']? = some g' := fun k'' g' hg' hne ↦
      ((Pending.getElem?_set_eq_some hf).mp hg').elim (fun heq ↦ absurd heq.1 hne) And.right
    rcases hs.fresh i hi with ⟨hfresh, rfl⟩ | ⟨rfl, hopen, hpool⟩
    · obtain ⟨hopen, hpool, hown⟩ := h.fresh k' f i hf hfresh
      exact ⟨hopen, hpool, fun k'' g' hg' hne ↦ hown k'' g' (hothers k'' g' hg' hne) hne⟩
    · refine ⟨hopen, fun a ha ↦ ?_, fun k'' g' hg' hne x hx ↦ ?_⟩
      · exact absurd (hlt (h.filed a _ (hpool ▸ ha))) (Nat.lt_irrefl _)
      · obtain ⟨m, hm, -⟩ := h.known g' (List.mem_of_getElem? (hothers k'' g' hg' hne)) x hx
        exact (hlt hm).ne
  · obtain ⟨⟨m, hm, hopen⟩, hpool, hothers⟩ := h.fresh k' g i hold hi
    have hnot : ∀ x ∈ f.pc.refs, x.2 ≠ i := fun x hx ↦ h.fresh_ne hold hi hf hne hx
    refine ⟨⟨m, (hs.made i m hm).resolve_right fun ⟨_, howed, _⟩ ↦ ?_, hopen⟩, fun a ha ↦ ?_,
      fun k'' g' hg' hne' x hx ↦ ?_⟩
    · obtain ⟨a, ha⟩ := Pc.exists_ref_of_owed howed
      exact hnot _ ha rfl
    · rcases hs.entry a i ha with ha | ⟨-, href, -⟩
      · exact hpool a ha
      · exact hnot _ href rfl
    · rcases (Pending.getElem?_set_eq_some hf).mp hg' with ⟨rfl, rfl⟩ | ⟨-, hg'⟩
      · rcases hs.refs x hx with hx | hx | ⟨hx, -⟩
        · exact hnot x hx
        · exact fun heq ↦ hpool x.1 (heq ▸ hx)
        · exact hx ▸ (hlt hm).ne'
      · exact hothers k'' g' hg' hne' x hx

/-- **Such a step keeps the invariant.** -/
theorem Inv.shift (h : Inv p) (hf : p.fetches[k]? = some f) (hs : Shift p.conns f C' f') :
    Inv ⟨C', p.fetches.set k f'⟩ := by
  have hstay : ∀ {x : String × ℕ}, (∃ m, p.conns.made[x.2]? = some m ∧ m.addr = x.1) →
      ∃ m, C'.made[x.2]? = some m ∧ m.addr = x.1 := by
    rintro x ⟨m, hm, haddr⟩
    rcases hs.made _ m hm with hm' | ⟨hm', -⟩
    · exact ⟨m, hm', haddr⟩
    · exact ⟨_, hm', haddr⟩
  refine ⟨fun a i hi ↦ ?_, fun g hg x hx ↦ ?_, h.shift_fresh hf hs, fun g hg a i hpc hi ↦ ?_,
    fun j m hm hopen ↦ ?_⟩
  · rcases hs.entry a i hi with hold | ⟨hfresh, href, hmade⟩
    · exact (hs.made i _ (h.filed a i hold)).resolve_right fun hshut ↦ hshut.2.2 a hold
    · exact (congrArg (·[i]?) hmade).trans (h.made_of_fresh hf hfresh href)
  · rcases List.mem_or_eq_of_mem_set hg with hg | rfl
    · exact hstay (h.known g hg x hx)
    · rcases hs.refs x hx with hx | hpool | ⟨-, hm⟩
      · exact hstay (h.known f (List.mem_of_getElem? hf) x hx)
      · exact hstay ⟨_, h.filed _ _ hpool, rfl⟩
      · exact ⟨_, hm, rfl⟩
  · obtain ⟨k', hg⟩ := List.mem_iff_getElem?.mp hg
    rcases (Pending.getElem?_set_eq_some hf).mp hg with ⟨rfl, rfl⟩ | ⟨hne, hold⟩
    · exact hs.out a i hpc hi
    · rcases hs.entry a i hi with hi | ⟨hfresh, -⟩
      · exact h.out g (List.mem_of_getElem? hold) a i hpc hi
      · refine h.fresh_ne hf hfresh hold hne.symm (x := (a, i)) ?_ rfl
        rw [hpc]
        exact List.mem_singleton_self _
  · rcases hs.kept j m hm hopen with howed | hpool | ⟨hm, hnot, hpool⟩
    · exact .inr ⟨f', Pending.mem_set_self hf, howed⟩
    · exact .inl hpool
    · refine (h.kept j m hm hopen).imp hpool ?_
      rintro ⟨g, hg, howed⟩
      rcases Pending.eq_or_mem_set hf hg with rfl | hg
      · exact absurd howed hnot
      · exact ⟨g, hg, howed⟩

/-! ## What a step can do -/

/-- The fetch goes on and shares no more connections than it did, or takes one from the map. -/
theorem shift_keep (hfresh : f'.pc.fresh = f.pc.fresh) (howed : f'.pc.owed = f.pc.owed)
    (hrefs : ∀ x ∈ f'.pc.refs, x ∈ f.pc.refs ∨ C.peerConns x.1 = some x.2)
    (hstays : ∀ addr i, f'.pc ≠ .closing addr i) : Shift C f C f' := by
  refine ⟨fun j m hm ↦ .inl hm, fun a j hj ↦ .inl hj, fun x hx ↦ (hrefs x hx).imp_right .inl,
    fun j hj ↦ .inl ⟨hfresh ▸ hj, rfl⟩, fun a j hj ↦ absurd hj (hstays a j), fun j m hm _ ↦ ?_⟩
  by_cases hj : f'.pc.owed = some j
  · exact .inl hj
  · exact .inr (.inr ⟨hm, howed ▸ hj, id⟩)

/-- A fetch that owes nothing goes on to where it is concerned with no connection. -/
theorem shift_rest (howed : f.pc.owed = none) (hrefs : f'.pc.refs = []) : Shift C f C f' := by
  have howed' := Pc.owed_of_refs hrefs
  refine shift_keep ?_ (howed'.trans howed.symm) (fun x hx ↦ ?_) fun addr i hpc ↦ ?_
  · rw [Pc.fresh_of_owed howed, Pc.fresh_of_owed howed']
  · rw [hrefs] at hx
    cases hx
  · rw [hpc] at hrefs
    cases hrefs

/-- A connection is made. -/
theorem shift_make (hpc : f.pc = .punching addr) :
    Shift C f { C with made := C.made ++ [⟨addr, false⟩] }
      { f with pc := .entering addr C.made.length } := by
  have hlast := List.getElem?_concat_length (l := C.made) (a := ⟨addr, false⟩)
  refine ⟨fun j m hm ↦ .inl (Pending.getElem?_concat_eq_some.mpr (.inl hm)), fun a j hj ↦ .inl hj,
    fun x hx ↦ .inr (.inr ?_), fun j hj ↦ .inr ?_, fun a j hj ↦ (nomatch hj), fun j m hm _ ↦ ?_⟩
  · rw [List.mem_singleton.mp hx]
    exact ⟨rfl, hlast⟩
  · obtain rfl : C.made.length = j := Option.some_inj.mp hj
    exact ⟨rfl, ⟨_, hlast, rfl⟩, rfl⟩
  · rcases Pending.getElem?_concat_eq_some.mp hm with hm | ⟨rfl, -⟩
    · exact .inr (.inr ⟨hm, hpc ▸ nofun, id⟩)
    · exact .inl rfl

/-- A connection is put into the map. -/
theorem Inv.shift_enter (h : Inv p) (hf : p.fetches[k]? = some f) (hpc : f.pc = .entering addr i)
    (hfree : p.conns.peerConns addr = none) :
    Shift p.conns f { p.conns with peerConns := update p.conns.peerConns addr (some i) }
      { f with pc := .requesting addr i } := by
  have href : (addr, i) ∈ f.pc.refs := hpc ▸ List.mem_singleton_self _
  have hfresh : f.pc.fresh = some i := hpc ▸ rfl
  refine ⟨fun j m hm ↦ .inl hm, fun a j hj ↦ ?_, fun x hx ↦ .inl (hpc ▸ hx),
    fun j hj ↦ (nomatch hj), fun a j hj ↦ (nomatch hj), fun j m hm hopen ↦ .inr ?_⟩
  · dsimp only at hj
    by_cases ha : a = addr
    · rw [ha, update_self, Option.some_inj] at hj
      exact .inr ⟨hj ▸ hfresh, ha ▸ hj ▸ href, rfl⟩
    · rw [update_of_ne ha] at hj
      exact .inl hj
  · by_cases hij : i = j
    · subst hij
      obtain rfl : ⟨addr, false⟩ = m :=
        Option.some_inj.mp ((h.made_of_fresh hf hfresh href).symm.trans hm)
      exact .inl (update_self ..)
    · refine .inr ⟨hm, fun howed ↦ ?_, fun hpool ↦ ?_⟩
      · rw [hpc] at howed
        exact hij (Option.some_inj.mp howed)
      · have hne : m.addr ≠ addr := fun ha ↦ by
          rw [ha, hfree] at hpool
          cases hpool
        exact (update_of_ne hne ..).trans hpool

/-- A connection that is not in the map is closed, by a fetch that owes it. -/
theorem shift_close (hunfiled : ∀ a, C.peerConns a ≠ some i)
    (hrefs : ∀ x ∈ f'.pc.refs, x ∈ f.pc.refs) (howed : f.pc.owed = some i)
    (hfresh : f'.pc.fresh = none) (hstays : ∀ addr i, f'.pc ≠ .closing addr i) :
    Shift C f (C.close i) f' := by
  refine ⟨fun j m hm ↦ ?_, fun a j hj ↦ .inl hj, fun x hx ↦ .inl (hrefs x hx), fun j hj ↦ ?_,
    fun a j hj ↦ absurd hj (hstays a j), fun j m hm hopen ↦ ?_⟩
  · rw [getElem?_close, hm, Option.map_some]
    split
    · rename_i hij
      exact .inr ⟨rfl, hij ▸ howed, hij ▸ hunfiled⟩
    · exact .inl rfl
  · rw [hfresh] at hj
    cases hj
  · obtain ⟨hij, hm⟩ := of_open_close hm hopen
    exact .inr (.inr ⟨hm, fun hj ↦ hij (Option.some_inj.mp (howed.symm.trans hj)), id⟩)

/-- A connection that failed is taken out of the map, if it is still the one that is there. -/
theorem shift_drop (hpc : f.pc = .dropping addr i) :
    Shift C f { C with
      peerConns := if C.peerConns addr = some i then update C.peerConns addr none
        else C.peerConns } { f with pc := .closing addr i } := by
  -- the entry that is taken out, if any, is the one of this connection
  have hiff : ∀ a j, (if C.peerConns addr = some i then update C.peerConns addr none
      else C.peerConns) a = some j ↔ C.peerConns a = some j ∧ ¬(a = addr ∧ j = i) := by
    intro a j
    split
    · rename_i hthere
      by_cases ha : a = addr
      · rw [ha, update_self, hthere, Option.some_inj]
        exact ⟨fun hnone ↦ (nomatch hnone), fun ⟨hj, hno⟩ ↦ absurd ⟨rfl, hj.symm⟩ hno⟩
      · rw [update_of_ne ha]
        exact (and_iff_left fun hno : a = addr ∧ j = i ↦ ha hno.1).symm
    · rename_i hthere
      refine (and_iff_left_of_imp fun hj ↦ ?_).symm
      rintro ⟨rfl, rfl⟩
      exact hthere hj
  refine ⟨fun j m hm ↦ .inl hm, fun a j hj ↦ .inl ((hiff a j).mp hj).1, fun x hx ↦ .inl (hpc ▸ hx),
    fun j hj ↦ (nomatch hj), fun a j hclosing hj ↦ ?_, fun j m hm hopen ↦ ?_⟩
  · rw [Pc.closing.injEq] at hclosing
    exact ((hiff a j).mp hj).2 ⟨hclosing.1.symm, hclosing.2.symm⟩
  · by_cases hthis : m.addr = addr ∧ j = i
    · exact .inl (hthis.2 ▸ rfl)
    · exact .inr (.inr ⟨hm, hpc ▸ nofun, fun hpool ↦ (hiff _ _).mpr ⟨hpool, hthis⟩⟩)

/-- The connection that is about to be closed is not in the map. -/
theorem Inv.unfiled (h : Inv p) (hf : f ∈ p.fetches) (hpc : f.pc = .closing addr i) (a : String) :
    p.conns.peerConns a ≠ some i := by
  intro ha
  -- it could only be filed under the address it leads to
  obtain ⟨m, hm, haddr⟩ := h.known f hf (addr, i) (hpc ▸ List.mem_singleton_self _)
  have hfiled := h.filed a i ha
  rw [hm, Option.some_inj] at hfiled
  rw [hfiled] at haddr
  obtain rfl : a = addr := haddr
  exact h.out f hf a i hpc ha

theorem Inv.shift_of_step (h : Inv p) (hf : p.fetches[k]? = some f) {e : FetchEvent}
    (hstep : f.step K p.conns e = some (C', f')) : Shift p.conns f C' f' := by
  rw [Fetch.step.eq_def] at hstep
  split at hstep <;> rename_i hpc
  case h_1 =>
    split at hstep
    · cases hstep
      exact shift_rest (hpc ▸ rfl) rfl
    · split at hstep <;> rename_i hpool <;> cases hstep
      · refine shift_keep (hpc ▸ rfl) (hpc ▸ rfl) (fun x hx ↦ .inr ?_) fun addr i h ↦ (nomatch h)
        rw [List.mem_singleton.mp hx]
        exact hpool
      · exact shift_rest (hpc ▸ rfl) rfl
  case h_2 =>
    split at hstep <;> cases hstep
    · exact shift_make hpc
    · exact shift_rest (hpc ▸ rfl) rfl
  case h_3 addr i =>
    split at hstep <;> rename_i hpool <;> cases hstep
    · refine shift_keep (hpc ▸ rfl) (hpc ▸ rfl) (fun x hx ↦ ?_) fun addr i h ↦ (nomatch h)
      rcases List.mem_cons.mp hx with rfl | hx
      · exact .inl (hpc ▸ List.mem_singleton_self _)
      · rw [List.mem_singleton.mp hx]
        exact .inr hpool
    · exact h.shift_enter hf hpc hpool
  case h_10 =>
    split at hstep
    · cases hstep
      exact shift_rest (hpc ▸ rfl) rfl
    · split at hstep <;> cases hstep
      · exact shift_rest (hpc ▸ rfl) rfl
      · refine shift_rest (hpc ▸ rfl) ?_
        dsimp only
        split <;> rfl
  all_goals cases hstep
  case h_4 addr i existing =>
    refine shift_close (h.fresh k f i hf (hpc ▸ rfl)).2.1 (fun x hx ↦ ?_) (hpc ▸ rfl) rfl
      fun a j hj ↦ (nomatch hj)
    rw [hpc]
    exact List.mem_cons_of_mem _ hx
  case h_5 =>
    exact shift_keep (hpc ▸ rfl) (hpc ▸ rfl) (fun x hx ↦ .inl (hpc ▸ hx)) fun a i hi ↦ (nomatch hi)
  case h_6 => exact shift_rest (hpc ▸ rfl) rfl
  case h_7 =>
    refine shift_rest (hpc ▸ rfl) ?_
    dsimp only
    split <;> rfl
  case h_8 => exact shift_drop hpc
  case h_9 =>
    exact shift_close (h.unfiled (List.mem_of_getElem? hf) hpc) (fun x hx ↦ (nomatch hx))
      (hpc ▸ rfl) rfl fun a j hj ↦ (nomatch hj)

/-- A fetch that begins is concerned with no connection. -/
theorem Inv.start (h : Inv p) (hash : String) (candidates : List String) :
    Inv { p with fetches := p.fetches ++ [⟨hash, candidates, .trying, [], none⟩] } := by
  refine ⟨h.filed, fun g hg x hx ↦ ?_, fun k' g i hg hi ↦ ?_, fun g hg a i hpc ↦ ?_,
    fun i m hm hopen ↦ ?_⟩
  · rcases List.mem_append.mp hg with hg | hg
    · exact h.known g hg x hx
    · rw [List.mem_singleton.mp hg] at hx
      cases hx
  · rcases Pending.getElem?_concat_eq_some.mp hg with hold | ⟨-, rfl⟩
    · obtain ⟨hopen, hpool, hothers⟩ := h.fresh k' g i hold hi
      refine ⟨hopen, hpool, fun k'' g' hg' hne x hx ↦ ?_⟩
      rcases Pending.getElem?_concat_eq_some.mp hg' with hold' | ⟨-, rfl⟩
      · exact hothers k'' g' hold' hne x hx
      · cases hx
    · cases hi
  · rcases List.mem_append.mp hg with hg | hg
    · exact h.out g hg a i hpc
    · rw [List.mem_singleton.mp hg] at hpc
      cases hpc
  · refine (h.kept i m hm hopen).imp_right ?_
    rintro ⟨g, hg, howed⟩
    exact ⟨g, List.mem_append_left _ hg, howed⟩

theorem Inv.step (h : Inv p) {e : Event} (hstep : step K p e = some p') : Inv p' := by
  cases e with
  | fetchChunk hash candidates =>
    rw [Peers.step, Option.some_inj] at hstep
    subst hstep
    exact h.start hash candidates
  | fetch k e =>
    obtain ⟨f, hf, hstep⟩ := Option.bind_eq_some_iff.mp hstep
    obtain ⟨⟨C', f'⟩, hfetch, rfl⟩ := Option.map_eq_some_iff.mp hstep
    exact h.shift hf (h.shift_of_step hf hfetch)
  | expire i =>
    rw [Peers.step, Option.ite_none_right_eq_some, Option.some_inj] at hstep
    obtain ⟨-, rfl⟩ := hstep
    exact ⟨h.filed, h.known, h.fresh, h.out, h.kept⟩

/-! ## The chunks -/

/-- This answer is the chunk. -/
def Fits (K : Config) (hash : String) (answer : Option Bytes) : Bool :=
  answer.any fun data ↦ K.env.chunkHashMatches data hash

/-- The record of a fetch and where it is agree: it goes on as long as no answer is the chunk, and
returns what they come to. -/
def Truthful (K : Config) (f : Fetch) : Prop :=
  match f.pc with
  | .returned result => result.toOption = K.env.fetchChunk f.answers f.relay f.hash
  | _ => f.relay = none ∧ ∀ a ∈ f.answers, Fits K f.hash a = false

/-- As long as no answer was the chunk, the next one decides. -/
theorem fetchChunk_append (hbefore : ∀ a ∈ answers, Fits K hash a = false)
    (last : List (Option Bytes)) (relay : Option Bytes) :
    K.env.fetchChunk (answers ++ last) relay hash = K.env.fetchChunk last relay hash := by
  have hnone : answers.find? (fun a ↦ a.any fun data ↦ K.env.chunkHashMatches data hash) = none :=
    List.find?_eq_none.mpr fun a ha ↦ by
      rw [Bool.not_eq_true]
      exact hbefore a ha
  rw [Env.fetchChunk, Env.fetchChunk, List.find?_append, hnone, Option.none_or]

theorem fetchChunk_of_relay (hbefore : ∀ a ∈ answers, Fits K hash a = false)
    (relay : Option Bytes) : K.env.fetchChunk answers relay hash =
      relay.filter fun data ↦ K.env.chunkHashMatches data hash := by
  have h := fetchChunk_append hbefore [] relay
  rwa [List.append_nil] at h

/-- One more answer that is not the chunk. -/
theorem forall_append_singleton {a : Option Bytes} (hbefore : ∀ a ∈ answers, Fits K hash a = false)
    (ha : Fits K hash a = false) :
    ∀ b ∈ answers ++ [a], Fits K hash b = false := by
  intro b hb
  rcases List.mem_append.mp hb with hb | hb
  · exact hbefore b hb
  · rw [List.mem_singleton.mp hb]
    exact ha

theorem Truthful.step {e : FetchEvent} (h : Truthful K f) (hstep : f.step K C e = some (C', f')) :
    Truthful K f' := by
  rw [Fetch.step.eq_def] at hstep
  split at hstep <;> rename_i hpc
  case h_11 => cases hstep
  all_goals
    rw [Truthful, hpc] at h
    obtain ⟨hrelay, hanswers⟩ := h
  case h_1 =>
    split at hstep
    · cases hstep
      exact ⟨hrelay, hanswers⟩
    · split at hstep <;> cases hstep
      · exact ⟨hrelay, hanswers⟩
      · exact ⟨hrelay, hanswers⟩
  case h_2 =>
    split at hstep <;> cases hstep
    · exact ⟨hrelay, hanswers⟩
    · exact ⟨hrelay, forall_append_singleton hanswers rfl⟩
  case h_3 =>
    split at hstep <;> cases hstep
    · exact ⟨hrelay, hanswers⟩
    · exact ⟨hrelay, hanswers⟩
  case h_10 =>
    have hnone : K.env.fetchChunk f.answers f.relay f.hash = none := by
      rw [hrelay]
      exact fetchChunk_of_relay hanswers none
    split at hstep
    · cases hstep
      exact hnone.symm
    · split at hstep <;> cases hstep
      · exact hnone.symm
      · rename_i data
        have hlast := fetchChunk_of_relay hanswers (some data)
        by_cases hmatch : K.env.chunkHashMatches data f.hash = true
        · rw [Option.filter_some, if_pos hmatch] at hlast
          rw [Truthful, if_pos hmatch]
          exact hlast.symm
        · rw [Option.filter_some, if_neg hmatch] at hlast
          rw [Truthful, if_neg hmatch]
          exact hlast.symm
  all_goals cases hstep
  case h_4 => exact ⟨hrelay, hanswers⟩
  case h_5 => exact ⟨hrelay, hanswers⟩
  case h_6 => exact ⟨hrelay, forall_append_singleton hanswers rfl⟩
  case h_7 data =>
    by_cases hmatch : K.env.chunkHashMatches data f.hash = true
    · rw [Truthful, if_pos hmatch]
      have hlast := fetchChunk_append hanswers [some data] f.relay
      refine Eq.symm (hlast.trans ?_)
      rw [Env.fetchChunk, List.find?_cons_of_pos (by exact hmatch)]
      rfl
    · rw [Truthful, if_neg hmatch]
      exact ⟨hrelay, forall_append_singleton hanswers ((Bool.not_eq_true _).mp hmatch)⟩
  case h_8 => exact ⟨hrelay, hanswers⟩
  case h_9 => exact ⟨hrelay, forall_append_singleton hanswers rfl⟩

/-! ## The result -/

/-- What holds at every moment. -/
structure Sound (K : Config) (p : State) : Prop where
  /-- A connection in the map leads to the address it is filed under. -/
  filed : ∀ addr i, p.conns.peerConns addr = some i → ∃ m, p.conns.made[i]? = some m ∧ m.addr = addr
  /-- It is open, unless it has closed itself. -/
  shared : ∀ addr i, p.conns.peerConns addr = some i → p.conns.idle i = true ∨ p.conns.Open i
  /-- A fetch asks the peer it means to ask. -/
  asks : ∀ f ∈ p.fetches, ∀ addr i, f.pc = .requesting addr i →
    ∃ m, p.conns.made[i]? = some m ∧ m.addr = addr
  /-- No connection is forgotten: one that is open is in the map, or some fetch is about to put it
  there or to close it. -/
  kept : ∀ i, p.conns.Open i →
    (∃ addr, p.conns.peerConns addr = some i) ∨ ∃ f ∈ p.fetches, f.pc.owed = some i
  /-- When no fetch is about to do either, there is one open connection to an address at most. -/
  settled : (∀ f ∈ p.fetches, f.pc.owed = none) → ∀ (i j : ℕ) m n, p.conns.Open i → p.conns.Open j →
    p.conns.made[i]? = some m → p.conns.made[j]? = some n → m.addr = n.addr → i = j
  /-- A call returns what the answers come to, and this is never a chunk with another hash. -/
  result : ∀ f ∈ p.fetches, ∀ result, f.pc = .returned result →
    result.toOption = K.env.fetchChunk f.answers f.relay f.hash ∧
      ∀ data, result = .ok data → K.env.chunkHashMatches data f.hash = true

theorem inv_of_exec {es : List Event} (h : exec (step K) new es = some p) : Inv p := by
  refine Trace.inv_of_exec (fun hp hstep ↦ hp.step hstep) ?_ h
  exact ⟨fun addr i hi ↦ (nomatch hi), fun f hf ↦ (nomatch hf), fun k f i hf ↦ (nomatch hf),
    fun f hf ↦ (nomatch hf), fun i m hm ↦ (nomatch hm)⟩

theorem truthful_of_exec {es : List Event} (h : exec (step K) new es = some p) :
    ∀ f ∈ p.fetches, Truthful K f := by
  refine Trace.inv_of_exec (P := fun p : State ↦ ∀ f ∈ p.fetches, Truthful K f)
    (fun {p e p'} hp hstep g hg ↦ ?_) (List.forall_mem_nil _) h
  cases e with
  | fetchChunk hash candidates =>
    rw [step, Option.some_inj] at hstep
    subst hstep
    rcases List.mem_append.mp hg with hg | hg
    · exact hp g hg
    · rw [List.mem_singleton.mp hg]
      exact ⟨rfl, fun a ha ↦ (nomatch ha)⟩
  | fetch k e =>
    obtain ⟨f, hf, hstep⟩ := Option.bind_eq_some_iff.mp hstep
    obtain ⟨⟨C', f'⟩, hfetch, rfl⟩ := Option.map_eq_some_iff.mp hstep
    rcases List.mem_or_eq_of_mem_set hg with hg | rfl
    · exact hp g hg
    · exact (hp f (List.mem_of_getElem? hf)).step hfetch
  | expire i =>
    rw [step, Option.ite_none_right_eq_some, Option.some_inj] at hstep
    obtain ⟨-, rfl⟩ := hstep
    exact hp g hg

/-- **Concurrent fetches share their connections soundly**, whatever the network does. -/
theorem fetches_sound {es : List Event} (h : exec (step K) new es = some p) : Sound K p := by
  have hinv := inv_of_exec h
  refine ⟨fun addr i hi ↦ ⟨_, hinv.filed addr i hi, rfl⟩, fun addr i hi ↦ ?_,
    fun f hf addr i hpc ↦ ?_, fun i ⟨m, hm, hopen, _⟩ ↦ ?_,
    fun hquiet i j m n hi hj hm hn haddr ↦ ?_, fun f hf result hpc ↦ ?_⟩
  · cases hidle : p.conns.idle i with
    | true => exact .inl rfl
    | false => exact .inr ⟨_, hinv.filed addr i hi, rfl, hidle⟩
  · refine hinv.known f hf (addr, i) ?_
    rw [hpc]
    exact List.mem_singleton_self _
  · exact (hinv.kept i m hm hopen).imp_left fun hfiled ↦ ⟨m.addr, hfiled⟩
  · have hfiled : ∀ {i : ℕ} {m : Made}, p.conns.Open i → p.conns.made[i]? = some m →
        p.conns.peerConns m.addr = some i := by
      rintro i m ⟨m', hm', hopen, -⟩ hm
      obtain rfl : m' = m := Option.some_inj.mp (hm'.symm.trans hm)
      refine (hinv.kept i m' hm hopen).resolve_right ?_
      rintro ⟨f, hf, howed⟩
      rw [hquiet f hf] at howed
      cases howed
    have hi := hfiled hi hm
    rw [haddr, hfiled hj hn] at hi
    exact (Option.some_inj.mp hi).symm
  · have htrue := truthful_of_exec h f hf
    rw [Truthful, hpc] at htrue
    refine ⟨htrue, fun data hdata ↦ ?_⟩
    rw [hdata] at htrue
    exact fetchChunk_matches htrue.symm

/-- Two fetches from the same peer at once: the second has punched in vain, and the connection of
the first closes itself. -/
def raceRun : List Event :=
  [.fetchChunk "07" ["p"], .fetchChunk "08" ["p"], .fetch 0 .go, .fetch 1 .go,
    .fetch 0 (.punched none), .fetch 1 (.punched none), .fetch 0 .go, .fetch 1 .go, .fetch 1 .go,
    .fetch 1 (.answered (.ok (some [8]))), .expire 0, .fetch 0 (.answered (.error "closed")),
    .fetch 0 .go, .fetch 0 .go, .fetch 0 .go, .fetch 0 (.relayed (.ok [7]))]

theorem fetches_sound_race :
    ∃ p, exec (step ⟨demoEnv, true, true⟩) new raceRun = some p ∧
      p.conns.made = [⟨"p", true⟩, ⟨"p", true⟩] ∧ Sound ⟨demoEnv, true, true⟩ p := by
  have hrun : (exec (step ⟨demoEnv, true, true⟩) new raceRun).map (fun p ↦ p.conns.made) =
      some [⟨"p", true⟩, ⟨"p", true⟩] := by decide +kernel
  obtain ⟨p, hp, hmade⟩ := Option.map_eq_some_iff.mp hrun
  exact ⟨p, hp, hmade, fetches_sound hp⟩

end TunnelCat.Mirror.Peers
