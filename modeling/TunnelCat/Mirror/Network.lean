import TunnelCat.Dht.Replies
import TunnelCat.Lib.PushPull
import TunnelCat.Mirror.Gossip

/-!
# How a content manifest spreads

Every node tells its closest contacts, from time to time, which version of the content manifest it
has.  Whoever has an older one asks for it, gets it in one datagram and hands it to its mirror,
which checks the signature and, if the signed time stamp is new to it, gives the manifest back to
the node.

`Net` is a number of processes, each a node with its mirror, and everything that was ever sent
between them.  A datagram can be delivered at any time after it was sent, any number of times, or
never.  All nodes have the same key, so that anybody may seal a datagram: `inject` puts any bytes on
the wire, with any source address.  The handler of a datagram is one step, and the call of the
mirror that it may end with is another one.

Two things are shown.  `content_signed` is about all states: whatever is injected, a node has
nothing or a manifest that passes the check of the mirror, with the time stamp that is signed.
`gossip_converges` is about states in which everything has arrived: a version that was advertised to
a node is no newer than the one it has — unless its mirror found one that new in its state file when
it started, because then the mirror takes the manifest for known and never gives it to the node.

The protocol itself is that of `PushPull`; `view` is what it sees of a network.
-/

set_option autoImplicit false

open Function Trace

namespace TunnelCat

/-- The JSON text of a `ContentHavePayload`. -/
def Dht.ContentHavePayload.text (p : Dht.ContentHavePayload) : Bytes :=
  Json.object [("ts", Json.int p.ts),
    ("complete", Json.utf8 (if p.complete then "true" else "false"))]

namespace Mirror

/-! ## The network -/

/-- What a node sends. -/
inductive Outgoing where
  /-- An advertisement. -/
  | contentHave (p : Dht.ContentHavePayload)
  /-- A reply. -/
  | message (m : Dht.Message)
  deriving DecidableEq

/-- The type it is sent with. -/
def Outgoing.type : Outgoing → Dht.MsgType
  | .contentHave _ => .contentHave
  | .message m => m.type

/-- The JSON text of the payload. -/
def Outgoing.body : Outgoing → Bytes
  | .contentHave p => p.text
  | .message m => m.body

/-- The nonce and the padding that `Seal` draws. -/
abbrev Draw := Vector UInt8 12 × {p : Bytes // p.length < 16}

/-- What `Seal` makes of it. -/
def Outgoing.packet (N : Dht.Env) (draw : Draw) (out : Outgoing) : Bytes :=
  Dht.sealPacket N.aead N.key draw.1 draw.2 out.type.code Dht.maxTTL out.body

/-- A datagram. -/
inductive Datagram (ι : Type) where
  /-- One of the processes has sent it. -/
  | genuine (i : ι) (dst : String) (out : Outgoing) (draw : Draw)
  /-- Somebody else has. -/
  | foreign (src dst : String) (pkt : Bytes)
  deriving DecidableEq

/-- The addresses of the processes. -/
structure Addresses (ι : Type) where
  /-- The address of a process. -/
  addr : ι → String
  /-- The process at an address. -/
  owner : String → Option ι
  /-- They belong together. -/
  owner_eq_some : ∀ {a i}, owner a = some i ↔ addr i = a

theorem Addresses.owner_addr {ι : Type} (A : Addresses ι) (i : ι) : A.owner (A.addr i) = some i :=
  A.owner_eq_some.mpr rfl

namespace Datagram

variable {ι : Type}

/-- Where it comes from, as the receiver sees it. -/
def src (A : Addresses ι) : Datagram ι → String
  | .genuine i _ _ _ => A.addr i
  | .foreign src _ _ => src

/-- Where it goes. -/
def dst : Datagram ι → String
  | .genuine _ dst _ _ => dst
  | .foreign _ dst _ => dst

/-- Its bytes. -/
def packet (N : Dht.Env) : Datagram ι → Bytes
  | .genuine _ _ out draw => out.packet N draw
  | .foreign _ _ pkt => pkt

end Datagram

/-- A network. -/
structure Net (ι : Type) where
  /-- The processes. -/
  procs : ι → Process
  /-- The manifests that handlers are about to give to the mirror. -/
  pending : ι → List Bytes
  /-- All datagrams that were sent. -/
  sent : List (Datagram ι)
  /-- Record: those that were delivered. -/
  seen : List ℕ

namespace Net

variable {ι : Type}

/-- What happens by itself in a process.  Somebody else may call `SetContent`, with a manifest that
was checked. -/
def isLocal (E : Env) : Process.Event → Bool
  | .content raw ts =>
    match E.verify raw with
    | .ok sm => sm.ts = ts
    | _ => false
  | .input (.arrival (.event (.packet ..))) => false
  | _ => true

/-- What happens. -/
inductive Event (ι : Type) where
  /-- Something in a process that has nothing to do with the network. -/
  | process (i : ι) (e : Process.Event)
  /-- `gossipContentHave`. -/
  | tick (i : ι) (draw : Draw)
  /-- Somebody sends a datagram. -/
  | inject (src dst : String) (pkt : Bytes)
  /-- A datagram is delivered. -/
  | deliver (k : ℕ) (now : ℤ) (draw : Draw)
  /-- A handler calls the mirror. -/
  | callback (i : ι) (k : ℕ)

/-- The datagram of an effect. -/
def datagram (j : ι) (draw : Draw) : Dht.Effect → Option (Datagram ι)
  | .send dst m => some (.genuine j dst (.message m) draw)
  | _ => none

/-- The manifest of an effect. -/
def manifest : Dht.Effect → Option Bytes
  | .gotContent raw => some raw
  | _ => none

variable [DecidableEq ι]

/-- One step. -/
def step (N : Dht.Env) (E : Env) (A : Addresses ι) (s : Net ι) : Event ι → Option (Net ι)
  | .process i e =>
    if isLocal E e then
      ((s.procs i).step N E e).map fun p ↦ { s with procs := update s.procs i p }
    else none
  | .tick i draw =>
    some { s with
      sent := s.sent ++ ((s.procs i).node.gossipContentHave N).map fun m ↦
        .genuine i m.1 (.contentHave m.2) draw }
  | .inject src dst pkt => some { s with sent := s.sent ++ [.foreign src dst pkt] }
  | .deliver k now draw =>
    s.sent[k]?.bind fun d ↦ (A.owner d.dst).map fun j ↦
      let r := (s.procs j).node.handlePacket N now (Dht.Message.received (d.packet N)) (d.src A)
      { procs := update s.procs j { s.procs j with node := r.1 }
        pending := update s.pending j (s.pending j ++ r.2.filterMap manifest)
        sent := s.sent ++ r.2.filterMap (datagram j draw)
        seen := s.seen ++ [k] }
  | .callback i k =>
    (s.pending i)[k]?.map fun raw ↦ { s with
      procs := update s.procs i { s.procs i with
        mirror := (s.procs i).mirror.onContentManifest E raw }
      pending := update s.pending i ((s.pending i).eraseIdx k) }

/-- The processes have just started, each with an identifier and a disk; the handler is the mirror's
`OnContentManifest`. -/
def start (E : Env) (A : Addresses ι) (id : ι → Dht.ID) (disk : ι → Disk FileName) : Net ι where
  procs i := ⟨{ Dht.Node.new (id i) (A.addr i) with onContent := true }, .start E (disk i)⟩
  pending _ := []
  sent := []
  seen := []

end Net

end Mirror

/-! ## What a handler does about the content -/

namespace Dht.Node

variable {q : ManifestPayload}

/-- A node sends no content manifest but its own. -/
theorem content_of_dispatch {N : Env} {now : ℤ} {n : Node} {src dst : String} {raw : Bytes}
    {ty : MsgType} (h : .send dst (.content q) ∈ (n.dispatch N now src raw ty).2) :
    q = ⟨n.contentTS, n.contentRaw⟩ ∧ n.contentRaw ≠ [] := by
  cases ty
  case contentWant =>
    rw [dispatch, handleContentWant] at h
    dsimp only at h
    split at h
    · rename_i hraw
      rw [List.mem_singleton, Effect.send.injEq, Message.content.injEq] at h
      exact ⟨h.2, hraw.1⟩
    · cases h
  all_goals
    simp only [dispatch, handlePing, handleFindNode, handleNodes, handleAnnounce, handleGetRelays,
      handleRelayList, handleManifestHave, handleManifestWant, handleManifestData, handleHolePunch,
      handleMirrorPunch, handleContentHave, handleContentData] at h
    repeat' split at h
    all_goals simp at h

theorem content_of_handlePacket {N : Env} {now : ℤ} {n : Node} {src dst : String} {pkt : Bytes}
    (h : .send dst (.content q) ∈ (n.handlePacket N now pkt src).2) :
    q = ⟨n.contentTS, n.contentRaw⟩ ∧ n.contentRaw ≠ [] := by
  rw [handlePacket] at h
  split at h
  · split at h
    · have hkept := (n.kept_clearSuspectByAddr src).1
      rw [kept, kept, Prod.mk.injEq, Prod.mk.injEq] at hkept
      have := content_of_dispatch h
      rwa [hkept.1, hkept.2.1] at this
    · cases h
  · cases h

end Dht.Node

namespace Mirror

variable {N : Dht.Env} {E : Env} {c : ℤ} {p p' : Process}

/-! ## What a process has -/

/-- What a node has is signed, and what its mirror has taken in is there or is on its way, unless it
was in the state file. -/
structure Held (E : Env) (c : ℤ) (p : Process) : Prop where
  /-- The handler is set. -/
  handler : p.node.onContent = true
  /-- Time stamps start at zero. -/
  nonneg : 0 ≤ p.node.contentTS
  /-- There is nothing, or a manifest with its time stamp. -/
  signed : p.node.contentTS = 0 ∧ p.node.contentRaw = [] ∨
    ∃ sm, E.verify p.node.contentRaw = .ok sm ∧ sm.ts = p.node.contentTS
  /-- What the mirror has accepted was checked. -/
  checked : ∀ s ∈ p.mirror.syncs, E.verify s.raw = .ok s.sm
  /-- The newest version the mirror knows. -/
  stored : p.mirror.ts ≤ p.node.contentTS ∨ p.mirror.ts ≤ c ∨
    ∃ s ∈ p.mirror.syncs, s.pc = .accepted ∧ s.sm.ts = p.mirror.ts

variable {st : Step} {raw : Bytes}

theorem raw_step {gen : ℕ} {d : Disk FileName} {s : Sync} {e : SyncEvent}
    (hst : s.step E gen d e = some st) : st.sync.raw = s.raw := by
  cases Sync.moves_of_step hst with
  | @cleanup f synced => cases synced <;> rfl
  | _ => rfl

/-- The first step of a goroutine gives its manifest to the node, and no other step does. -/
theorem call_of_step {gen : ℕ} {d : Disk FileName} {s : Sync} {e : SyncEvent}
    (hst : s.step E gen d e = some st) (n : Dht.Node) :
    (s.pc = .accepted ∧ st.call.elim n (notify n) = n.setContent s.raw s.sm.ts) ∨
      (s.pc ≠ .accepted ∧ (st.call.elim n (notify n)).kept = n.kept) := by
  have hcomplete : ∀ ts b, (n.setContentComplete ts b).kept = n.kept := fun ts b ↦ by
    rw [Dht.Node.setContentComplete]
    split <;> rfl
  cases Sync.moves_of_step hst with
  | accepted hpc => exact .inl ⟨hpc, rfl⟩
  | gossiped hpc => exact .inr ⟨by simp [hpc], hcomplete ..⟩
  | announce hpc => exact .inr ⟨by simp [hpc], hcomplete ..⟩
  | _ hpc => exact .inr ⟨by simp [hpc], rfl⟩

variable {draw : Draw} {sm : SignedContentManifest}

/-- The node is given a manifest that was checked. -/
theorem Held.setContent (h : Held E c p) (hsm : E.verify raw = .ok sm) :
    Held E c { p with node := p.node.setContent raw sm.ts } ∧
      sm.ts ≤ (p.node.setContent raw sm.ts).contentTS := by
  rw [Dht.Node.setContent]
  split
  · rename_i hts
    exact ⟨⟨h.handler, h.nonneg.trans hts.le, .inr ⟨sm, hsm, rfl⟩, h.checked,
      h.stored.imp_left fun hle ↦ hle.trans hts.le⟩, le_rfl⟩
  · rename_i hts
    exact ⟨h, Int.not_lt.mp hts⟩

/-- Something else happens to the node. -/
theorem Held.node (h : Held E c p) {n : Dht.Node} (hkept : n.kept = p.node.kept) :
    Held E c { p with node := n } := by
  rw [Dht.Node.kept, Dht.Node.kept, Prod.mk.injEq, Prod.mk.injEq] at hkept
  obtain ⟨hraw, hts, hon⟩ := hkept
  exact ⟨hon ▸ h.handler, hts ▸ h.nonneg, by rw [hts, hraw]; exact h.signed, h.checked,
    by rw [hts]; exact h.stored⟩

/-- The mirror is given a manifest. -/
theorem Held.manifest (h : Held E c p) (raw : Bytes) :
    Held E c { p with mirror := p.mirror.onContentManifest E raw } := by
  rcases p.mirror.onContentManifest_cases E raw with heq | ⟨sm, hsm, hts, heq⟩ <;> rw [heq]
  · exact h
  · refine ⟨h.handler, h.nonneg, h.signed, fun s hs ↦ ?_, .inr (.inr ?_)⟩
    · rcases List.mem_append.mp hs with hs | hs
      · exact h.checked s hs
      · rw [List.mem_singleton.mp hs]
        exact hsm
    · exact ⟨_, List.mem_append_right _ (List.mem_singleton_self _), rfl, rfl⟩

/-- A goroutine of the mirror goes on. -/
theorem Held.sync (h : Held E c p) {i : ℕ} {s : Sync} {e : SyncEvent}
    (hi : p.mirror.syncs[i]? = some s) (hst : s.step E p.mirror.gen p.mirror.disk e = some st) :
    Held E c ⟨st.call.elim p.node (notify p.node), p.mirror.perform E i st⟩ := by
  have hmem := List.mem_of_getElem? hi
  have hchecked : ∀ t ∈ (p.mirror.perform E i st).syncs, E.verify t.raw = .ok t.sm := by
    intro t ht
    rcases List.mem_or_eq_of_mem_set ht with ht | rfl
    · exact h.checked t ht
    · rw [raw_step hst, sm_step hst]
      exact h.checked s hmem
  -- a goroutine that is waiting for its first step is still there, unless this was the step
  have hstored : p.mirror.ts ≤ p.node.contentTS ∨ p.mirror.ts ≤ c ∨
      (s.pc = .accepted ∧ s.sm.ts = p.mirror.ts) ∨
      ∃ t ∈ (p.mirror.perform E i st).syncs, t.pc = .accepted ∧ t.sm.ts = p.mirror.ts := by
    rcases h.stored with hle | hle | ⟨t, ht, hpc, hts⟩
    · exact .inl hle
    · exact .inr (.inl hle)
    · obtain ⟨j, hj⟩ := List.mem_iff_getElem?.mp ht
      rcases eq_or_ne i j with rfl | hne
      · obtain rfl := Option.some_inj.mp (hi.symm.trans hj)
        exact .inr (.inr (.inl ⟨hpc, hts⟩))
      · exact .inr (.inr (.inr ⟨t, List.mem_of_getElem? ((List.getElem?_set_ne hne).trans hj),
          hpc, hts⟩))
  rcases call_of_step hst p.node with ⟨-, hcall⟩ | ⟨hpc, hkept⟩
  · obtain ⟨hset, hle⟩ := h.setContent (h.checked s hmem)
    rw [hcall]
    refine ⟨hset.handler, hset.nonneg, hset.signed, hchecked, ?_⟩
    have hgrows := Process.contentTS_le_setContent p.node s.raw s.sm.ts
    rcases hstored with hts | hts | ⟨-, hts⟩ | ht
    · exact .inl (hts.trans hgrows)
    · exact .inr (.inl hts)
    · exact .inl (hts ▸ hle)
    · exact .inr (.inr ht)
  · have hnode := h.node hkept
    refine ⟨hnode.handler, hnode.nonneg, hnode.signed, hchecked, ?_⟩
    rw [Dht.Node.kept, Dht.Node.kept, Prod.mk.injEq, Prod.mk.injEq] at hkept
    rw [hkept.2.1]
    rcases hstored with hts | hts | ⟨hpc', -⟩ | ht
    · exact .inl hts
    · exact .inr (.inl hts)
    · exact absurd hpc' hpc
    · exact .inr (.inr ht)

theorem Held.own (h : Held E c p) {e : Process.Event} (he : Net.isLocal E e = true)
    (hs : p.step N E e = some p') : Held E c p' := by
  cases e with
  | content raw ts =>
    rw [← Option.some.inj hs]
    rw [Net.isLocal] at he
    split at he
    · rename_i sm hsm
      rw [← of_decide_eq_true he]
      exact (h.setContent hsm).1
    · cases he
  | manifest raw =>
    rw [← Option.some.inj hs]
    exact h.manifest raw
  | sync i e =>
    obtain ⟨s, hi, hs⟩ := Option.bind_eq_some_iff.mp hs
    obtain ⟨st, hst, rfl⟩ := Option.map_eq_some_iff.mp hs
    exact h.sync hi hst
  | input i =>
    obtain ⟨n, hn, rfl⟩ := Option.map_eq_some_iff.mp hs
    exact h.node (Dht.Node.kept_input hn).1

/-! ## The protocol -/

/-- What holds of JSON texts, as far as nodes and mirrors look into manifests. -/
structure JsonLaws (N : Dht.Env) (E : Env) : Prop where
  /-- What can be parsed is a JSON text. -/
  valid : ∀ raw sm, E.unmarshal raw = .ok sm → raw ≠ [] ∧ N.validJSON raw = true
  /-- A JSON text that was compacted is parsed alike. -/
  compact : ∀ raw, N.validJSON raw = true → E.unmarshal (Json.raw raw) = E.unmarshal raw

theorem unmarshal_of_verify (h : E.verify raw = .ok sm) :
    E.unmarshal raw = .ok sm := by
  rw [Env.verify] at h
  split at h
  · cases h
  · rename_i sm' hsm
    rw [hsm]
    repeat' split at h
    all_goals first | exact congrArg _ (Outcome.ok.inj h) | cases h

/-- A manifest arrives as one that passes the same check. -/
theorem verify_compact (L : JsonLaws N E) (h : E.verify raw = .ok sm) :
    E.verify (Json.raw raw) = .ok sm := by
  have hvalid := (L.valid raw sm (unmarshal_of_verify h)).2
  rw [Env.verify, L.compact raw hvalid]
  exact h

/-- What was sent can be read: the datagram fits into the buffer of the receiver, and its JSON text
is decoded to what was encoded; a manifest arrives compacted. -/
structure Outgoing.Legible (N : Dht.Env) (draw : Draw) (out : Outgoing) : Prop where
  /-- It fits. -/
  fits : (out.packet N draw).length ≤ Dht.maxUDPSize
  /-- An advertisement is decoded. -/
  contentHave : ∀ q, out = .contentHave q → N.unmarshalContentHave q.text = some q
  /-- A manifest is decoded. -/
  content : ∀ q, out = .message (.content q) →
    N.unmarshalManifest q.text = some ⟨q.ts, Json.raw q.raw⟩

/-- A datagram that fits into the buffer is opened. -/
theorem Outgoing.opens {out : Outgoing} (hfits : (out.packet N draw).length ≤ Dht.maxUDPSize) :
    Dht.openPacket N.aead N.key (Dht.Message.received (out.packet N draw)) =
      .ok (out.type.code, Dht.maxTTL, out.body) := by
  rw [Dht.Message.received, List.take_of_length_le hfits]
  refine Dht.openPacket_sealPacket _ _ _ _ _ _ ?_
  rw [packet, Dht.sealPacket, List.length_append, N.aead.length_seal, Vector.length_toList] at hfits
  simp only [List.length_cons, List.length_append, Dht.maxUDPSize] at hfits
  rw [maxPlaintext]
  omega

/-- What the handler of such a datagram does. -/
theorem Outgoing.handlePacket {out : Outgoing} (hfits : (out.packet N draw).length ≤ Dht.maxUDPSize)
    (now : ℤ) (n : Dht.Node) (src : String) :
    n.handlePacket N now (Dht.Message.received (out.packet N draw)) src =
      (n.clearSuspectByAddr src).dispatch N now src out.body out.type := by
  rw [Dht.Node.handlePacket, Outgoing.opens hfits]
  dsimp only
  rw [Dht.MsgType.ofCode_code]

/-- An advertisement is of no use, or the receiver asks for the manifest. -/
theorem handle_contentHave {q : Dht.ContentHavePayload}
    (hlegible : (Outgoing.contentHave q).Legible N draw) (now : ℤ) (n : Dht.Node) (src : String) :
    q.ts ≤ n.contentTS ∨ .send src .contentWant ∈ (n.handlePacket N now
      (Dht.Message.received ((Outgoing.contentHave q).packet N draw)) src).2 := by
  have hts : (n.clearSuspectByAddr src).contentTS = n.contentTS :=
    congrArg (fun k ↦ k.2.1) (n.kept_clearSuspectByAddr src).1
  rw [Outgoing.handlePacket hlegible.fits]
  simp only [Outgoing.type, Outgoing.body, Dht.Node.dispatch, Dht.Node.handleContentHave,
    hlegible.contentHave q rfl, hts]
  by_cases h : q.ts > n.contentTS
  · rw [if_pos h]
    exact .inr (List.mem_singleton_self _)
  · exact .inl (Int.not_lt.mp h)

/-- A request is answered by a node that has a manifest. -/
theorem handle_contentWant (L : JsonLaws N E)
    (hlegible : (Outgoing.message .contentWant).Legible N draw) (now : ℤ) (h : Held E c p)
    (src : String) :
    p.node.contentTS = 0 ∨ .send src (.content ⟨p.node.contentTS, p.node.contentRaw⟩) ∈
      (p.node.handlePacket N now
        (Dht.Message.received ((Outgoing.message .contentWant).packet N draw)) src).2 := by
  have hkept := (p.node.kept_clearSuspectByAddr src).1
  rw [Dht.Node.kept, Dht.Node.kept, Prod.mk.injEq, Prod.mk.injEq] at hkept
  rw [Outgoing.handlePacket hlegible.fits]
  simp only [Outgoing.type, Dht.Message.type, Dht.Node.dispatch, Dht.Node.handleContentWant,
    hkept.1, hkept.2.1]
  rcases h.signed with ⟨hzero, -⟩ | ⟨sm, hsm, -⟩
  · exact .inl hzero
  · rw [if_pos (L.valid _ sm (unmarshal_of_verify hsm))]
    exact .inr (List.mem_singleton_self _)

/-- A manifest is of no use, or it is handed to the mirror. -/
theorem handle_content {q : Dht.ManifestPayload}
    (hlegible : (Outgoing.message (.content q)).Legible N draw) (now : ℤ) (h : Held E c p)
    (src : String) :
    q.ts ≤ p.node.contentTS ∨ .gotContent (Json.raw q.raw) ∈ (p.node.handlePacket N now
      (Dht.Message.received ((Outgoing.message (.content q)).packet N draw)) src).2 := by
  have hkept := (p.node.kept_clearSuspectByAddr src).1
  rw [Dht.Node.kept, Dht.Node.kept, Prod.mk.injEq, Prod.mk.injEq] at hkept
  rw [Outgoing.handlePacket hlegible.fits]
  simp only [Outgoing.type, Outgoing.body, Dht.Message.type, Dht.Message.body, Dht.Node.dispatch,
    Dht.Node.handleContentData, hlegible.content q rfl, hkept.2.1, hkept.2.2, h.handler]
  by_cases hts : p.node.contentTS < q.ts
  · rw [if_pos ⟨hts, trivial⟩]
    exact .inr (List.mem_singleton_self _)
  · exact .inl (Int.not_lt.mp hts)

namespace Net

variable {ι : Type} {A : Addresses ι} {s t : Net ι}

/-- What the protocol sees of what one process sends to another. -/
def msgOf (i j : ι) : Outgoing → PushPull.Msg ι ℤ
  | .contentHave p => .advert i j p.ts
  | .message .contentWant => .request i j
  | .message (.content q) => .answer i j q.ts
  | .message _ => .other

/-- What it sees of a datagram. -/
def msg (A : Addresses ι) : Datagram ι → PushPull.Msg ι ℤ
  | .genuine i dst out _ => (A.owner dst).elim .other fun j ↦ msgOf i j out
  | .foreign _ _ _ => .other

/-- A node has a version, its mirror knows of it, or a handler is about to give it to the mirror. -/
def Took (E : Env) (s : Net ι) (j : ι) (v : ℤ) : Prop :=
  v ≤ (s.procs j).node.contentTS ∨ v ≤ (s.procs j).mirror.ts ∨
    ∃ raw ∈ s.pending j, ∃ sm, E.verify raw = .ok sm ∧ v ≤ sm.ts

/-- What the protocol sees of a network. -/
def view (E : Env) (A : Addresses ι) (s : Net ι) : PushPull.View ι ℤ where
  ver i := (s.procs i).node.contentTS
  took := Took E s
  sent := s.sent.map (msg A)
  seen := s.seen

/-- What the processes send can be read. -/
def Legible (N : Dht.Env) (s : Net ι) : Prop :=
  ∀ i dst out draw, .genuine i dst out draw ∈ s.sent → out.Legible N draw

/-- What holds of every network. -/
structure Inv (E : Env) (c : ι → ℤ) (s : Net ι) : Prop where
  /-- Of every process. -/
  held : ∀ i, Held E (c i) (s.procs i)
  /-- Nobody advertises nothing. -/
  haves : ∀ i dst p draw, .genuine i dst (.contentHave p) draw ∈ s.sent → 0 < p.ts
  /-- What is sent is signed. -/
  signed : ∀ i dst q draw, .genuine i dst (.message (.content q)) draw ∈ s.sent →
    ∃ sm, E.verify q.raw = .ok sm ∧ sm.ts = q.ts

theorem msg_genuine {i j : ι} {dst : String} (hj : A.owner dst = some j) (out : Outgoing)
    (draw : Draw) : msg A (.genuine i dst out draw) = msgOf i j out := by
  rw [msg, hj, Option.elim_some]

theorem msg_eq_advert {d : Datagram ι} {i j : ι} {v : ℤ} (h : msg A d = .advert i j v) :
    ∃ dst p draw, d = .genuine i dst (.contentHave p) draw ∧ p.ts = v := by
  cases d with
  | foreign src dst pkt => cases h
  | genuine i' dst out draw =>
    rcases Option.eq_none_or_eq_some (A.owner dst) with hnone | ⟨j', hj⟩
    · rw [msg, hnone] at h
      cases h
    · rw [msg_genuine hj, msgOf.eq_def] at h
      split at h
      · obtain ⟨rfl, -, rfl⟩ := PushPull.Msg.advert.inj h
        exact ⟨_, _, _, rfl, rfl⟩
      all_goals cases h

theorem inv_start (E : Env) (A : Addresses ι) (id : ι → Dht.ID) (disk : ι → Disk FileName) :
    Inv E (fun i ↦ MirrorManager.cachedTS E (disk i)) (start E A id disk) :=
  ⟨fun _ ↦ ⟨rfl, le_rfl, .inl ⟨rfl, rfl⟩, nofun, .inr (.inl le_rfl)⟩, nofun, nofun⟩

/-! ### When everything has arrived -/

/-- Everything has arrived: the datagrams between the processes were delivered, the handlers have
called their mirrors, and the mirrors have given their nodes what they accepted. -/
structure Settled (A : Addresses ι) (s : Net ι) : Prop where
  /-- The datagrams were delivered. -/
  delivered : ∀ k i j out draw, s.sent[k]? = some (.genuine i (A.addr j) out draw) → k ∈ s.seen
  /-- The mirrors were called. -/
  called : ∀ i, s.pending i = []
  /-- The nodes have what was accepted. -/
  stored : ∀ i, ∀ sync ∈ (s.procs i).mirror.syncs, sync.pc ≠ .accepted

/-- The first process has advertised what it has to the second. -/
def Told (A : Addresses ι) (s : Net ι) (i j : ι) : Prop :=
  ∃ p draw, .genuine i (A.addr j) (.contentHave p) draw ∈ s.sent ∧
    p.ts = (s.procs i).node.contentTS

theorem advert_mem_view {i j : ι} {p : Dht.ContentHavePayload} {draw : Draw}
    (h : .genuine i (A.addr j) (.contentHave p) draw ∈ s.sent) :
    .advert i j p.ts ∈ (view E A s).sent :=
  List.mem_map.mpr ⟨_, h, msg_genuine (A.owner_addr j) ..⟩

theorem Settled.quiet (h : Settled A s) : PushPull.Quiet (view E A s) := by
  intro k m hk
  have hk : (s.sent.map (msg A))[k]? = some m := hk
  rw [List.getElem?_map] at hk
  obtain ⟨d, hd, rfl⟩ := Option.map_eq_some_iff.mp hk
  cases d with
  | foreign src dst pkt => exact .inl rfl
  | genuine i dst out draw =>
    rcases Option.eq_none_or_eq_some (A.owner dst) with hnone | ⟨j, hj⟩
    · rw [msg, hnone]
      exact .inl rfl
    · exact .inr (h.delivered k i j out draw (A.owner_eq_some.mp hj ▸ hd))

variable {j : ι} {es : List (Event ι)}

/-- What a process has taken in is there, or was in the state file of its mirror. -/
theorem Settled.took (h : Settled A s) {c : ι → ℤ} (hinv : Inv E c s) {v : ℤ}
    (htook : Took E s j v) : v ≤ (s.procs j).node.contentTS ∨ v ≤ c j := by
  rcases htook with hv | hv | ⟨raw, hraw, -⟩
  · exact .inl hv
  · rcases (hinv.held j).stored with hle | hle | ⟨sync, hmem, hpc, -⟩
    · exact .inl (hv.trans hle)
    · exact .inr (hv.trans hle)
    · exact absurd hpc (h.stored j sync hmem)
  · rw [h.called j] at hraw
    cases hraw

/-! ### Every step -/

variable [DecidableEq ι]

theorem mem_gossipContentHave {n : Dht.Node} {m : String × Dht.ContentHavePayload}
    (h : m ∈ n.gossipContentHave N) : n.contentTS ≠ 0 ∧ m.2.ts = n.contentTS := by
  rw [Dht.Node.gossipContentHave] at h
  split at h
  · cases h
  · rename_i hts
    obtain ⟨contact, -, hm⟩ := List.mem_filterMap.mp h
    obtain ⟨a, -, rfl⟩ := Option.map_eq_some_iff.mp hm
    exact ⟨hts, rfl⟩

/-- What a process has after one of them did something. -/
theorem forall_update {procs : ι → Process} {R : ι → Process → Prop} {p : Process}
    (h : ∀ i, R i (procs i)) (hj : R j p) : ∀ i, R i (update procs j p i) :=
  (forall_update_iff procs R).mpr ⟨hj, fun i _ ↦ h i⟩

variable {e : Event ι}

theorem held_step {c : ι → ℤ} (h : ∀ i, Held E (c i) (s.procs i)) (hs : s.step N E A e = some t) :
    ∀ i, Held E (c i) (t.procs i) := by
  cases e with
  | process i e =>
    rw [step, Option.ite_none_right_eq_some] at hs
    obtain ⟨hlocal, hs⟩ := hs
    obtain ⟨p, hp, rfl⟩ := Option.map_eq_some_iff.mp hs
    exact forall_update h ((h i).own hlocal hp)
  | tick i draw | inject src dst pkt =>
    rw [step, Option.some_inj] at hs
    subst hs
    exact h
  | deliver k now draw =>
    obtain ⟨d, -, hs⟩ := Option.bind_eq_some_iff.mp hs
    obtain ⟨j, -, rfl⟩ := Option.map_eq_some_iff.mp hs
    exact forall_update h ((h j).node (Dht.Node.kept_handlePacket ..).1)
  | callback i k =>
    obtain ⟨raw, -, rfl⟩ := Option.map_eq_some_iff.mp hs
    exact forall_update h ((h i).manifest raw)

/-- Time stamps only grow. -/
theorem grows_step (hs : s.step N E A e = some t) :
    ∀ i, (s.procs i).node.contentTS ≤ (t.procs i).node.contentTS ∧
      (s.procs i).mirror.ts ≤ (t.procs i).mirror.ts := by
  have hrefl : ∀ i, (s.procs i).node.contentTS ≤ (s.procs i).node.contentTS ∧
      (s.procs i).mirror.ts ≤ (s.procs i).mirror.ts := fun i ↦ ⟨le_rfl, le_rfl⟩
  have hmirror : ∀ (m : MirrorManager) raw, m.ts ≤ (m.onContentManifest E raw).ts := by
    intro m raw
    rcases m.onContentManifest_cases E raw with heq | ⟨sm, -, hts, heq⟩ <;> rw [heq]
    exact hts.le
  have hupdate : ∀ {j p}, (s.procs j).node.contentTS ≤ p.node.contentTS ∧
      (s.procs j).mirror.ts ≤ p.mirror.ts →
      ∀ i, (s.procs i).node.contentTS ≤ (update s.procs j p i).node.contentTS ∧
        (s.procs i).mirror.ts ≤ (update s.procs j p i).mirror.ts := fun hj ↦
    forall_update (R := fun i p ↦ (s.procs i).node.contentTS ≤ p.node.contentTS ∧
      (s.procs i).mirror.ts ≤ p.mirror.ts) hrefl hj
  cases e with
  | process i e =>
    rw [step, Option.ite_none_right_eq_some] at hs
    obtain ⟨-, hs⟩ := hs
    obtain ⟨p, hp, rfl⟩ := Option.map_eq_some_iff.mp hs
    refine hupdate ⟨Process.contentTS_le_step hp, ?_⟩
    rcases Process.step_cases hp with ⟨hm, -⟩ | ⟨raw, -, hm, -⟩ | ⟨i, e', sync, st, -, -, -, hm, -⟩
    · rw [hm]
    · rw [hm]
      exact hmirror ..
    · rw [hm]
      exact le_rfl
  | tick i draw | inject src dst pkt =>
    rw [step, Option.some_inj] at hs
    subst hs
    exact hrefl
  | deliver k now draw =>
    obtain ⟨d, -, hs⟩ := Option.bind_eq_some_iff.mp hs
    obtain ⟨j, -, rfl⟩ := Option.map_eq_some_iff.mp hs
    refine hupdate ⟨?_, le_rfl⟩
    exact (congrArg (fun k ↦ k.2.1) (Dht.Node.kept_handlePacket ..).1).ge
  | callback i k =>
    obtain ⟨raw, -, rfl⟩ := Option.map_eq_some_iff.mp hs
    exact hupdate ⟨le_rfl, hmirror ..⟩

/-- What a step puts on the wire: advertisements of what a process has, replies of a handler, or
something foreign. -/
theorem sent_step (hs : s.step N E A e = some t) :
    ∃ new, t.sent = s.sent ++ new ∧ ∀ d ∈ new,
      (∃ i dst p draw, d = .genuine i dst (.contentHave p) draw ∧
        (s.procs i).node.contentTS ≠ 0 ∧ p.ts = (s.procs i).node.contentTS) ∨
      (∃ i dst m draw now pkt src, d = .genuine i dst (.message m) draw ∧
        .send dst m ∈ ((s.procs i).node.handlePacket N now pkt src).2) ∨
      ∃ src dst pkt, d = .foreign src dst pkt := by
  cases e with
  | process i e =>
    rw [step, Option.ite_none_right_eq_some] at hs
    obtain ⟨-, hs⟩ := hs
    obtain ⟨p, -, rfl⟩ := Option.map_eq_some_iff.mp hs
    exact ⟨[], (List.append_nil _).symm, nofun⟩
  | tick i draw =>
    rw [step, Option.some_inj] at hs
    subst hs
    refine ⟨_, rfl, fun d hd ↦ .inl ?_⟩
    obtain ⟨m, hm, rfl⟩ := List.mem_map.mp hd
    exact ⟨i, m.1, m.2, draw, rfl, mem_gossipContentHave hm⟩
  | inject src dst pkt =>
    rw [step, Option.some_inj] at hs
    subst hs
    exact ⟨_, rfl, fun d hd ↦ .inr (.inr ⟨src, dst, pkt, List.mem_singleton.mp hd⟩)⟩
  | deliver k now draw =>
    obtain ⟨d, -, hs⟩ := Option.bind_eq_some_iff.mp hs
    obtain ⟨j, -, rfl⟩ := Option.map_eq_some_iff.mp hs
    refine ⟨_, rfl, fun x hx ↦ .inr (.inl ?_)⟩
    obtain ⟨effect, heffect, hx⟩ := List.mem_filterMap.mp hx
    cases effect with
    | send dst m =>
      rw [datagram, Option.some_inj] at hx
      exact ⟨j, dst, m, draw, now, _, _, hx.symm, heffect⟩
    | _ => cases hx
  | callback i k =>
    obtain ⟨raw, -, rfl⟩ := Option.map_eq_some_iff.mp hs
    exact ⟨[], (List.append_nil _).symm, nofun⟩

theorem Inv.step {c : ι → ℤ} (h : Inv E c s) (hs : s.step N E A e = some t) :
    Inv E c t := by
  obtain ⟨new, hsent, hnew⟩ := sent_step hs
  refine ⟨held_step h.held hs, fun i dst p draw hmem ↦ ?_, fun i dst q draw hmem ↦ ?_⟩ <;>
    rw [hsent, List.mem_append] at hmem <;> rcases hmem with hmem | hmem
  · exact h.haves i dst p draw hmem
  · rcases hnew _ hmem with ⟨i', dst', p', draw', heq, hne, hts⟩ |
      ⟨i', dst', m, draw', now, pkt, src, heq, -⟩ | ⟨src, dst', pkt, heq⟩
    · obtain ⟨rfl, -, hout, -⟩ := Datagram.genuine.inj heq
      rw [Outgoing.contentHave.inj hout, hts]
      exact lt_of_le_of_ne (h.held i).nonneg (Ne.symm hne)
    · exact nomatch (Datagram.genuine.inj heq).2.2.1
    · cases heq
  · exact h.signed i dst q draw hmem
  · rcases hnew _ hmem with ⟨i', dst', p', draw', heq, -⟩ |
      ⟨i', dst', m, draw', now, pkt, src, heq, heffect⟩ | ⟨src, dst', pkt, heq⟩
    · exact nomatch (Datagram.genuine.inj heq).2.2.1
    · obtain ⟨rfl, rfl, hout, -⟩ := Datagram.genuine.inj heq
      rw [← Outgoing.message.inj hout] at heffect
      obtain ⟨rfl, hne⟩ := Dht.Node.content_of_handlePacket heffect
      exact (h.held i).signed.resolve_left fun hnone ↦ hne hnone.2
    · cases heq

theorem took_step {v : ℤ} (h : Took E s j v) (hs : s.step N E A e = some t) :
    Took E t j v := by
  have hgrows := grows_step hs j
  rcases h with hv | hv | ⟨raw, hraw, sm, hsm, hv⟩
  · exact .inl (hv.trans hgrows.1)
  · exact .inr (.inl (hv.trans hgrows.2))
  · cases e with
    | process i e =>
      rw [step, Option.ite_none_right_eq_some] at hs
      obtain ⟨-, hs⟩ := hs
      obtain ⟨p, -, rfl⟩ := Option.map_eq_some_iff.mp hs
      exact .inr (.inr ⟨raw, hraw, sm, hsm, hv⟩)
    | tick i draw | inject src dst pkt =>
      rw [step, Option.some_inj] at hs
      subst hs
      exact .inr (.inr ⟨raw, hraw, sm, hsm, hv⟩)
    | deliver k now draw =>
      obtain ⟨d, -, hs⟩ := Option.bind_eq_some_iff.mp hs
      obtain ⟨i, -, rfl⟩ := Option.map_eq_some_iff.mp hs
      refine .inr (.inr ⟨raw, ?_, sm, hsm, hv⟩)
      rcases eq_or_ne j i with rfl | hne
      · show raw ∈ update s.pending j _ j
        rw [update_self]
        exact List.mem_append_left _ hraw
      · show raw ∈ update s.pending i _ j
        rw [update_of_ne hne]
        exact hraw
    | callback i k =>
      obtain ⟨raw', hk, rfl⟩ := Option.map_eq_some_iff.mp hs
      rcases eq_or_ne j i with rfl | hne
      · -- either this is the manifest, or it is still to come
        rcases eq_or_ne raw raw' with rfl | hraw'
        · refine .inr (.inl (hv.trans ?_))
          show sm.ts ≤ (update s.procs j _ j).mirror.ts
          rw [update_self]
          show sm.ts ≤ ((s.procs j).mirror.onContentManifest E raw).ts
          rw [MirrorManager.onContentManifest, hsm]
          dsimp only
          split
          · assumption
          · exact le_rfl
        · refine .inr (.inr ⟨raw, ?_, sm, hsm, hv⟩)
          show raw ∈ update s.pending j _ j
          rw [update_self]
          obtain ⟨l, hl⟩ := List.mem_iff_getElem?.mp hraw
          refine List.mem_eraseIdx_iff_getElem?.mpr ⟨l, fun hlk ↦ hraw' ?_, hl⟩
          exact Option.some_inj.mp ((hlk ▸ hl).symm.trans hk)
      · refine .inr (.inr ⟨raw, ?_, sm, hsm, hv⟩)
        show raw ∈ update s.pending i _ j
        rw [update_of_ne hne]
        exact hraw

/-- The receiver of a datagram does its part of the protocol. -/
theorem handled_deliver (L : JsonLaws N E) {c : ι → ℤ} (h : Inv E c s)
    (hsound : PushPull.Sound (view E A s)) (hlegible : Legible N s) {k : ℕ} {now : ℤ} {draw : Draw}
    {d : Datagram ι} (hd : s.sent[k]? = some d) (hj : A.owner d.dst = some j)
    (hs : s.step N E A (.deliver k now draw) = some t) :
    PushPull.Handled (view E A s) (view E A t) (msg A d) := by
  have hgrows := fun i ↦ (grows_step hs i).1
  rw [step, hd, Option.bind_some, hj, Option.map_some, Option.some_inj] at hs
  cases d with
  | foreign src dst pkt => trivial
  | genuine i dst out draw' =>
    have hmem := List.mem_of_getElem? hd
    have hj : A.owner dst = some j := hj
    have hread := hlegible i dst out draw' hmem
    rw [msg_genuine hj]
    -- the replies go to the sender
    have hreply : ∀ m, .send (A.addr i) m ∈ ((s.procs j).node.handlePacket N now
        (Dht.Message.received (out.packet N draw')) (A.addr i)).2 →
        .genuine j (A.addr i) (.message m) draw ∈ t.sent.drop s.sent.length := by
      intro m hm
      rw [← hs, List.drop_left]
      exact List.mem_filterMap.mpr ⟨_, hm, rfl⟩
    cases out with
    | contentHave q =>
      show _ ∨ _
      rcases handle_contentHave hread now (s.procs j).node (A.addr i) with hts | hm
      · exact .inl (hts.trans (hgrows j))
      · obtain ⟨l, hl⟩ := List.mem_iff_getElem?.mp (hreply _ hm)
        rw [List.getElem?_drop] at hl
        refine .inr ⟨s.sent.length + l, ?_, ?_⟩
        · exact (List.length_map ..).trans_le (Nat.le_add_right ..)
        · show (t.sent.map (msg A))[s.sent.length + l]? = _
          rw [List.getElem?_map, hl, Option.map_some, msg_genuine (A.owner_addr i)]
          rfl
    | message m =>
      cases m with
      | contentWant =>
        show _ ∨ _
        rcases handle_contentWant L hread now (h.held j) (A.addr i) with hzero | hm
        · refine .inr fun v hadv ↦ ?_
          obtain ⟨x, hx, hmsg⟩ := List.mem_map.mp hadv
          obtain ⟨dst', p, draw'', rfl, rfl⟩ := msg_eq_advert hmsg
          have hpos := h.haves _ _ _ _ hx
          have hle : p.ts ≤ (s.procs j).node.contentTS := hsound.adverts _ _ _ hadv
          omega
        · refine .inl ⟨(s.procs j).node.contentTS, le_rfl, ?_⟩
          exact List.mem_map.mpr ⟨_, List.mem_of_mem_drop (hreply _ hm),
            msg_genuine (A.owner_addr i) ..⟩
      | content q =>
        show Took E t j q.ts
        obtain ⟨sm, hsm, hts⟩ := h.signed i dst q draw' hmem
        rcases handle_content hread now (h.held j) (A.addr i) with hle | hm
        · exact .inl (hle.trans (hgrows j))
        · refine .inr (.inr ⟨Json.raw q.raw, ?_, sm, verify_compact L hsm, hts.ge⟩)
          rw [← hs]
          show _ ∈ update s.pending j _ j
          rw [update_self]
          exact List.mem_append_right _ (List.mem_filterMap.mpr ⟨_, hm, rfl⟩)
      | _ => trivial

/-- **A step of the network is a step of the protocol.** -/
theorem moves_of_step (L : JsonLaws N E) {c : ι → ℤ} (h : Inv E c s)
    (hsound : PushPull.Sound (view E A s)) (hlegible : Legible N s) (hs : s.step N E A e = some t) :
    PushPull.Moves (view E A s) (view E A t) := by
  obtain ⟨new, hsent, hnew⟩ := sent_step hs
  have hview : (view E A t).sent = (view E A s).sent ++ new.map (msg A) := by
    show t.sent.map (msg A) = _
    rw [hsent, List.map_append]
    rfl
  refine ⟨fun i ↦ (grows_step hs i).1, fun i v htook ↦ took_step htook hs,
    hview ▸ List.prefix_append .., fun i j v hadv ↦ ?_, fun k hk ↦ ?_⟩
  · rw [hview, List.mem_append] at hadv
    refine hadv.imp_right fun hadv ↦ ?_
    obtain ⟨d, hd, hmsg⟩ := List.mem_map.mp hadv
    obtain ⟨dst, p, draw, rfl, rfl⟩ := msg_eq_advert hmsg
    rcases hnew _ hd with ⟨i', dst', p', draw', heq, hne, hts⟩ |
      ⟨i', dst', m, draw', now, pkt, src, heq, -⟩ | ⟨src, dst', pkt, heq⟩
    · obtain ⟨rfl, -, hout, -⟩ := Datagram.genuine.inj heq
      rw [Outgoing.contentHave.inj hout, hts]
      exact (grows_step hs i).1
    · exact nomatch (Datagram.genuine.inj heq).2.2.1
    · cases heq
  · cases e with
    | deliver l now draw =>
      have hstep := hs
      obtain ⟨d, hd, hs⟩ := Option.bind_eq_some_iff.mp hs
      obtain ⟨j, hj, rfl⟩ := Option.map_eq_some_iff.mp hs
      rcases List.mem_append.mp hk with hk | hk
      · exact .inl hk
      · rw [List.mem_singleton.mp hk]
        refine .inr ⟨msg A d, ?_, handled_deliver L h hsound hlegible hd hj hstep⟩
        show (s.sent.map (msg A))[l]? = _
        rw [List.getElem?_map, hd, Option.map_some]
    | process i e =>
      rw [step, Option.ite_none_right_eq_some] at hs
      obtain ⟨p, -, rfl⟩ := Option.map_eq_some_iff.mp hs.2
      exact .inl hk
    | tick i draw | inject src dst pkt =>
      rw [step, Option.some_inj] at hs
      subst hs
      exact .inl hk
    | callback i l =>
      obtain ⟨raw, -, rfl⟩ := Option.map_eq_some_iff.mp hs
      exact .inl hk

/-! ## The results -/

variable {id : ι → Dht.ID} {disk : ι → Disk FileName}

theorem inv_of_exec (hrun : exec (step N E A) (start E A id disk) es = some s) :
    Inv E (fun i ↦ MirrorManager.cachedTS E (disk i)) s :=
  Trace.inv_of_exec Inv.step (inv_start E A id disk) hrun

theorem pushPull_of_exec (L : JsonLaws N E)
    (hrun : exec (step N E A) (start E A id disk) es = some s) (hlegible : Legible N s) :
    PushPull.Sound (view E A s) := by
  -- what can be read at the end could be read all the time
  have hinv : Inv E (fun i ↦ MirrorManager.cachedTS E (disk i)) s ∧
      (Legible N s → PushPull.Sound (view E A s)) := by
    refine Trace.inv_of_exec (P := fun s ↦ Inv E (fun i ↦ MirrorManager.cachedTS E (disk i)) s ∧
      (Legible N s → PushPull.Sound (view E A s))) (fun {s e t} h hs ↦ ⟨h.1.step hs, ?_⟩)
      ⟨inv_start E A id disk, fun _ ↦ PushPull.sound_nil rfl rfl⟩ hrun
    intro hlegible
    obtain ⟨new, hsent, -⟩ := sent_step hs
    have hbefore : Legible N s := fun i dst out draw hmem ↦
      hlegible i dst out draw (hsent ▸ List.mem_append_left _ hmem)
    exact (h.2 hbefore).step (moves_of_step L h.1 (h.2 hbefore) hbefore hs)
  exact hinv.2 hlegible

/-- **What nodes have and send is signed**, and never gets older.  Whatever is injected, delivered,
repeated and lost, and in whatever order the processes go on. -/
theorem content_signed {es : List (Event ι)}
    (hrun : exec (step N E A) (start E A id disk) es = some s) :
    (∀ i, (s.procs i).node.contentTS = 0 ∧ (s.procs i).node.contentRaw = [] ∨
      ∃ sm, E.verify (s.procs i).node.contentRaw = .ok sm ∧
        sm.ts = (s.procs i).node.contentTS) ∧
    (∀ i dst q draw, .genuine i dst (.message (.content q)) draw ∈ s.sent →
      ∃ sm, E.verify q.raw = .ok sm ∧ sm.ts = q.ts) ∧
    ∀ pre post u, es = pre ++ post → exec (step N E A) (start E A id disk) pre = some u →
      ∀ i, (u.procs i).node.contentTS ≤ (s.procs i).node.contentTS := by
  have hinv := inv_of_exec hrun
  refine ⟨fun i ↦ (hinv.held i).signed, hinv.signed, fun pre post u hes hu i ↦ ?_⟩
  rw [hes] at hrun
  obtain ⟨u', hu', hpost⟩ := exec_append.mp hrun
  obtain rfl := Option.some_inj.mp (hu.symm.trans hu')
  exact Trace.inv_of_exec
    (P := fun t : Net ι ↦ (u.procs i).node.contentTS ≤ (t.procs i).node.contentTS)
    (fun hle hs ↦ hle.trans (grows_step hs i).1) le_rfl hpost

/-- **Gossip converges.**  When everything has arrived, a node has a version as new as any that was
advertised to it, unless its mirror found one that new in its state file when it started.  So if no
mirror found any, a version that one node has advertised has reached all that it can be told to,
directly or through others. -/
theorem gossip_converges (L : JsonLaws N E) {es : List (Event ι)}
    (hrun : exec (step N E A) (start E A id disk) es = some s) (hlegible : Legible N s)
    (hsettled : Settled A s) :
    (∀ i j p draw, .genuine i (A.addr j) (.contentHave p) draw ∈ s.sent →
      p.ts ≤ (s.procs j).node.contentTS ∨ p.ts ≤ MirrorManager.cachedTS E (disk j)) ∧
    ((∀ j, MirrorManager.cachedTS E (disk j) ≤ 0) → ∀ i j, Relation.ReflTransGen (Told A s) i j →
      (s.procs i).node.contentTS ≤ (s.procs j).node.contentTS) := by
  have hinv := inv_of_exec hrun
  have hsound := pushPull_of_exec L hrun hlegible
  have hquiet := hsettled.quiet (E := E)
  refine ⟨fun i j p draw hmem ↦ ?_, fun hnone i j hpath ↦ ?_⟩
  · rcases hsound.reached hquiet (advert_mem_view hmem) with hv | ⟨w, hw, htook⟩
    · exact .inl hv
    · exact (hsettled.took hinv htook).imp hw.trans hw.trans
  · have htold : ∀ i j, Told A s i j → PushPull.Told (view E A s) i j := by
      rintro i j ⟨p, draw, hmem, hts⟩
      have hadv := advert_mem_view (E := E) hmem
      rwa [hts] at hadv
    refine hsound.spread hquiet (fun j v htook ↦ ?_) (Relation.ReflTransGen.mono htold _ _ hpath)
    rcases hsettled.took hinv htook with hv | hv
    · exact hv
    · exact (hv.trans (hnone j)).trans (hinv.held j).nonneg

/-! ## Two processes -/

/-- The address of one of two processes. -/
def pairAddr (i : Bool) : String := if i then "192.0.2.1:4000" else "198.51.100.1:4000"

/-- The process at an address. -/
def pairOwner (a : String) : Option Bool :=
  if a = pairAddr true then some true else if a = pairAddr false then some false else none

theorem pairOwner_eq_some {a : String} {i : Bool} : pairOwner a = some i ↔ pairAddr i = a := by
  have hne : pairAddr false ≠ pairAddr true := by decide +kernel
  rw [pairOwner]
  split
  · rename_i h
    cases i with
    | false => simp [h, hne]
    | true => simp [h]
  · rename_i h
    split
    · rename_i h'
      cases i with
      | false => simp [h']
      | true => simp [h', hne.symm]
    · rename_i h'
      cases i with
      | false => simp [Ne.symm h']
      | true => simp [Ne.symm h]

/-- The addresses of two processes. -/
def pair : Addresses Bool := ⟨pairAddr, pairOwner, pairOwner_eq_some⟩

/-- Mirrors that know one manifest. -/
def oneManifest : Env := { demoEnv with
  unmarshal raw :=
    if raw = [1] then .ok (demoManifest 1) else .error "unexpected end of JSON input" }

/-- Nodes that can read it. -/
def oneVersion : Dht.Env := { Dht.Node.demoEnv with
  unmarshalContentHave raw :=
    if raw = Dht.ContentHavePayload.text ⟨1, false⟩ then some ⟨1, false⟩ else none
  unmarshalManifest raw := if raw = Dht.ManifestPayload.text ⟨1, [1]⟩ then some ⟨1, [1]⟩ else none
  validJSON raw := raw = [1] }

theorem oneVersion_laws : JsonLaws oneVersion oneManifest := by
  refine ⟨fun raw sm h ↦ ?_, fun raw h ↦ ?_⟩
  · have h : (if raw = [1] then Except.ok (demoManifest 1) else
        .error "unexpected end of JSON input") = Except.ok sm := h
    split at h
    · rename_i hraw
      rw [hraw]
      exact ⟨nofun, rfl⟩
    · cases h
  · rw [of_decide_eq_true h]
    rfl

/-- A draw. -/
def zeroDraw : Draw := (Vector.replicate 12 0, Dht.noPadding)

/-- Somebody tells the first process of the second; the first gets a manifest and advertises it, and
the second asks for it and takes it in. -/
def spreadRun : List (Event Bool) :=
  [.inject "203.0.113.1:4000" (pairAddr false) Dht.Node.nodesPacket, .deliver 0 0 zeroDraw,
    .process false (.manifest [1]), .process false (.sync 0 .next), .tick false zeroDraw,
    .deliver 1 0 zeroDraw, .deliver 2 0 zeroDraw, .deliver 3 0 zeroDraw, .callback true 0,
    .process true (.sync 0 .next)]

/-- What was sent then. -/
def spreadSent : List (Datagram Bool) :=
  [.foreign "203.0.113.1:4000" (pairAddr false) Dht.Node.nodesPacket,
    .genuine false (pairAddr true) (.contentHave ⟨1, false⟩) zeroDraw,
    .genuine true (pairAddr false) (.message .contentWant) zeroDraw,
    .genuine false (pairAddr true) (.message (.content ⟨1, [1]⟩)) zeroDraw]

/-- The start of two processes with empty disks. -/
def pairStart : Net Bool :=
  start oneManifest pair (fun i ↦ if i then Dht.Node.peer.id else Dht.RoutingTable.zeroID)
    fun _ ↦ .empty

theorem exec_spreadRun :
    ∃ s, exec (step oneVersion oneManifest pair) pairStart spreadRun = some s ∧
      s.sent = spreadSent ∧ s.seen = [0, 1, 2, 3] ∧ (∀ i, s.pending i = []) ∧
      ∀ i, (s.procs i).mirror.syncs.map Sync.pc = [.gossiped] ∧
        (s.procs i).node.contentTS = 1 := by
  have hsent : (exec (step oneVersion oneManifest pair) pairStart spreadRun).map (fun s ↦
      (s.sent, s.seen)) = some (spreadSent, [0, 1, 2, 3]) := by
    decide +kernel
  have hprocs : ∀ i, (exec (step oneVersion oneManifest pair) pairStart spreadRun).map (fun s ↦
      (s.pending i, (s.procs i).mirror.syncs.map Sync.pc, (s.procs i).node.contentTS)) =
      some ([], [.gossiped], 1) := by
    decide +kernel
  obtain ⟨s, hs, heq⟩ := Option.map_eq_some_iff.mp hsent
  rw [hs] at hprocs
  have hproc := fun i ↦ Prod.mk.injEq .. ▸ Option.some_inj.mp (hprocs i)
  exact ⟨s, hs, congrArg Prod.fst heq, congrArg Prod.snd heq, fun i ↦ (hproc i).1,
    fun i ↦ ⟨congrArg Prod.fst (hproc i).2, congrArg Prod.snd (hproc i).2⟩⟩

theorem legible_spreadSent :
    ∀ i dst out draw, .genuine i dst out draw ∈ spreadSent → out.Legible oneVersion draw := by
  intro i dst out draw hmem
  rw [spreadSent, List.mem_cons, List.mem_cons, List.mem_cons, List.mem_singleton] at hmem
  rcases hmem with heq | heq | heq | heq
  · cases heq
  all_goals
    obtain ⟨-, -, rfl, rfl⟩ := Datagram.genuine.inj heq
    exact ⟨by decide +kernel, fun q hq ↦ by cases hq <;> decide +kernel,
      fun q hq ↦ by cases hq <;> decide +kernel⟩

theorem content_signed_pair :
    ∃ s, exec (step oneVersion oneManifest pair) pairStart spreadRun = some s ∧
      ∃ sm, oneManifest.verify (s.procs true).node.contentRaw = .ok sm ∧ sm.ts = 1 := by
  obtain ⟨s, hs, -, -, -, hprocs⟩ := exec_spreadRun
  refine ⟨s, hs, ?_⟩
  rcases (content_signed hs).1 true with ⟨hzero, -⟩ | ⟨sm, hsm, hts⟩
  · rw [(hprocs true).2] at hzero
    cases hzero
  · exact ⟨sm, hsm, hts.trans (hprocs true).2⟩

theorem gossip_converges_pair :
    ∃ s, exec (step oneVersion oneManifest pair) pairStart spreadRun = some s ∧
      Legible oneVersion s ∧ Settled pair s ∧ Told pair s false true ∧
        (s.procs false).node.contentTS ≤ (s.procs true).node.contentTS := by
  obtain ⟨s, hs, hsent, hseen, hpending, hprocs⟩ := exec_spreadRun
  have hlegible : Legible oneVersion s := fun i dst out draw hmem ↦
    legible_spreadSent i dst out draw (hsent ▸ hmem)
  have hsettled : Settled pair s := by
    refine ⟨fun k i j out draw hk ↦ ?_, hpending, fun i sync hmem hpc ↦ ?_⟩
    · have hlt := (List.getElem?_eq_some_iff.mp hk).1
      rw [hsent] at hlt
      rw [hseen]
      exact List.mem_range.mpr hlt
    · have := List.mem_map_of_mem (f := Sync.pc) hmem
      rw [(hprocs i).1, hpc] at this
      exact absurd this (by decide)
  have htold : Told pair s false true := by
    refine ⟨⟨1, false⟩, zeroDraw, ?_, (hprocs false).2.symm⟩
    rw [hsent]
    exact List.mem_cons_of_mem _ (List.mem_cons_self ..)
  refine ⟨s, hs, hlegible, hsettled, htold, ?_⟩
  exact (gossip_converges oneVersion_laws hs hlegible hsettled).2 (fun _ ↦ le_rfl) _ _
    (.single htold)

end Net

end Mirror

end TunnelCat
