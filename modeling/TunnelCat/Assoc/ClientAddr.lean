import TunnelCat.Assoc.Steps

/-!
# Who is taken for the client

`relayLoop` has one socket for the client and for everybody else.  It takes a datagram for one of
the client if it has a SOCKS5 header with fragment number 0, whoever sent it, and remembers its
source as the address of the client.  So a server that sends such a datagram becomes the client: it
is sent what is meant for the client, and what it sends goes on to the destination that it names.

`Intact` is what should be true of a step.  `Unmistakable` is the condition on the datagrams of
others: none of them looks like one of the client, except that it may be one that is dropped because
QUIC is blocked, as long as there is no client.
-/

set_option autoImplicit false

open Trace

namespace TunnelCat.Assoc

namespace Session

variable {s t : Session} {client : Addr}

/-- What the client sends has a header with fragment number 0. -/
def FromClient (client : Addr) : Event → Prop
  | .relay (.datagram src data lookup) =>
    src = client → (outbound lookup (data.take bufferSize)).isSome = true
  | _ => True

/-- The address of the client is not known yet, or it is the right one. -/
def Known (client : Addr) (s : Session) : Prop :=
  s.clientUDPAddr = none ∨ s.clientUDPAddr = some client

/-- After the step the address of the client is not wrong; and if it was known before, and the step
reads a datagram from somebody else, that is wrapped and sent to the client, and not forwarded. -/
structure Intact (client : Addr) (s : Session) (e : Event) : Prop where
  /-- The address is not wrong. -/
  known : ∀ t, s.step e = some t → t.Known client
  /-- The datagram is sent to the client, and the relay loop is done with it. -/
  delivered : ∀ src data lookup t, e = .relay (.datagram src data lookup) → src ≠ client →
    s.clientUDPAddr ≠ none → s.step e = some t →
    t.written = s.written ++ [(buildSOCKS5UDPHeader src (data.take bufferSize), client)] ∧
      t.loop = .top

/-- A datagram from somebody else does not look like one of the client, unless there is no client
and it is dropped because QUIC is blocked. -/
def Unmistakable (client : Addr) (s : Session) : Event → Prop
  | .relay (.datagram src data lookup) => src ≠ client →
    ∀ p ∈ outbound lookup (data.take bufferSize),
      s.clientUDPAddr = none ∧ s.blockQUIC = true ∧ p.1.port = 443
  | _ => True

instance decidableFromClient (client : Addr) (e : Event) : Decidable (FromClient client e) :=
  match e with
  | .relay (.datagram src data lookup) =>
    inferInstanceAs (Decidable (src = client →
      (outbound lookup (data.take bufferSize)).isSome = true))
  | .relay .again | .relay .timeout | .relay .fail | .relay .forward | .relay (.route _)
  | .relay .findQueue | .relay .enqueue | .relay .abandon | .worker _ _ | .drain _ _ | .fallback _
  | .tick _ | .stop => isTrue trivial

instance decidableUnmistakable (client : Addr) (s : Session) (e : Event) :
    Decidable (Unmistakable client s e) :=
  match e with
  | .relay (.datagram src data lookup) =>
    inferInstanceAs (Decidable (src ≠ client → ∀ p ∈ outbound lookup (data.take bufferSize),
      s.clientUDPAddr = none ∧ s.blockQUIC = true ∧ p.1.port = 443))
  | .relay .again | .relay .timeout | .relay .fail | .relay .forward | .relay (.route _)
  | .relay .findQueue | .relay .enqueue | .relay .abandon | .worker _ _ | .drain _ _ | .fallback _
  | .tick _ | .stop => isTrue trivial

/-- A step that reads no datagram lets the address of the client alone. -/
theorem clientUDPAddr_of_step {e : Event} (h : s.step e = some t) :
    (∀ src data lookup, e ≠ .relay (.datagram src data lookup)) ∧
        t.clientUDPAddr = s.clientUDPAddr ∨
      ∃ src data lookup, e = .relay (.datagram src data lookup) ∧
        t = s.receive src (data.take bufferSize) lookup := by
  cases e with
  | relay e =>
    rcases loopStep_spec h with ⟨hother, hkeeps⟩ | ⟨src, data, lookup, rfl, ht⟩
    · exact .inl ⟨fun src data lookup he ↦ hother src data lookup (Event.relay.inj he),
        hkeeps.clientUDPAddr⟩
    · exact .inr ⟨src, data, lookup, rfl, ht⟩
  | worker k e =>
    obtain ⟨w, hw, h⟩ := Option.bind_eq_some_iff.mp h
    exact .inl ⟨nofun, (workerStep_spec hw h).2.1⟩
  | drain i e =>
    obtain ⟨d, hd, h⟩ := Option.bind_eq_some_iff.mp h
    exact .inl ⟨nofun, (drainStep_spec h).1.clientUDPAddr⟩
  | fallback i =>
    obtain ⟨f, hf, h⟩ := Option.bind_eq_some_iff.mp h
    split at h <;> cases h
    exact .inl ⟨nofun, rfl⟩
  | tick d => cases h; exact .inl ⟨nofun, rfl⟩
  | stop => cases h; exact .inl ⟨nofun, rfl⟩

variable {data : Bytes} {src : Addr} {lookup : Lookup}

/-- Whatever looks like a datagram of the client changes its address, unless it is dropped. -/
theorem receive_outbound {p : Addr × Bytes} (hp : outbound lookup data = some p) :
    s.receive src data lookup =
      if s.blockQUIC ∧ p.1.port = 443 then { s with loop := .top }
      else { s with clientUDPAddr := some src, loop := .forwarding p.1 p.2 } := by
  rw [receive, hp]

/-- Anything else is wrapped and sent to the client. -/
theorem receive_inbound (hp : outbound lookup data = none) :
    s.receive src data lookup = s.inbound src data := by
  rw [receive, hp]

theorem written_inbound (h : s.clientUDPAddr = some client) :
    (s.inbound src data).written = s.written ++ [(buildSOCKS5UDPHeader src data, client)] := by
  rw [inbound, show (s.recordRecv src).clientUDPAddr = some client from h]
  rfl

/-- A datagram of the client. -/
theorem known_receive_client (h : s.Known client) (hp : (outbound lookup data).isSome = true) :
    (s.receive client data lookup).Known client := by
  obtain ⟨p, hp⟩ := Option.isSome_iff_exists.mp hp
  rw [receive_outbound hp]
  split
  · exact h
  · exact .inr rfl

/-- Which datagrams of others do no harm. -/
theorem receive_other_iff (h : s.Known client) (hsrc : src ≠ client) :
    (s.receive src data lookup).Known client ∧ (s.clientUDPAddr ≠ none →
        (s.receive src data lookup).written =
          s.written ++ [(buildSOCKS5UDPHeader src data, client)] ∧
        (s.receive src data lookup).loop = .top) ↔
      ∀ p ∈ outbound lookup data, s.clientUDPAddr = none ∧ s.blockQUIC = true ∧ p.1.port = 443 := by
  cases hp : outbound lookup data with
  | none =>
    obtain ⟨hkeeps, hloop⟩ := inbound_spec s src data
    rw [receive_inbound hp]
    refine ⟨fun _ ↦ nofun, fun _ ↦ ⟨?_, fun hset ↦ ⟨?_, hloop⟩⟩⟩
    · rw [Known, hkeeps.clientUDPAddr]
      exact h
    · exact written_inbound (h.resolve_left hset)
  | some p =>
    rw [receive_outbound hp]
    simp only [Option.mem_def, Option.some_inj, forall_eq']
    by_cases hquic : s.blockQUIC = true ∧ p.1.port = 443
    · rw [if_pos hquic]
      refine ⟨fun hintact ↦ ⟨?_, hquic⟩, fun hfresh ↦ ⟨h, fun hset ↦ absurd hfresh.1 hset⟩⟩
      -- A datagram that is dropped is not sent to the client.
      by_contra hset
      exact absurd (hintact.2 hset).1 (by simp)
    · rw [if_neg hquic]
      refine ⟨fun hintact ↦ ?_, fun hfresh ↦ absurd hfresh.2 hquic⟩
      rcases hintact.1 with hnone | hclient
      · cases hnone
      · exact absurd (Option.some_inj.mp hclient) hsrc

/-- A step is harmless exactly if it does not read a datagram that can be mistaken. -/
theorem intact_iff {e : Event} (h : s.Known client) (hclient : FromClient client e)
    (hstep : s.step e = some t) : Intact client s e ↔ Unmistakable client s e := by
  have honly : ∀ u, s.step e = some u → u = t := fun u hu ↦
    Option.some_inj.mp (hu.symm.trans hstep)
  rcases clientUDPAddr_of_step hstep with ⟨hother, hsame⟩ | ⟨src, data, lookup, rfl, rfl⟩
  · refine ⟨fun _ ↦ ?_,
      fun _ ↦ ⟨fun u hu ↦ ?_, fun src data lookup u he ↦ absurd he (hother _ _ _)⟩⟩
    · unfold Unmistakable
      split
      · exact absurd rfl (hother _ _ _)
      · trivial
    · rw [honly u hu, Known, hsame]
      exact h
  · by_cases hsrc : src = client
    · subst hsrc
      refine ⟨fun _ hne ↦ absurd rfl hne, fun _ ↦ ⟨fun u hu ↦ ?_, ?_⟩⟩
      · rw [honly u hu]
        exact known_receive_client h (hclient rfl)
      · intro src' data' lookup' u he hne
        cases he
        exact absurd rfl hne
    · refine ⟨fun hintact _ ↦ ?_, fun hun ↦ ?_⟩
      · exact (receive_other_iff h hsrc).mp ⟨hintact.known _ hstep, fun hset ↦
          hintact.delivered src data lookup _ rfl hsrc hset hstep⟩
      · obtain ⟨hknown, hdelivered⟩ := (receive_other_iff h hsrc).mpr (hun hsrc)
        refine ⟨fun u hu ↦ honly u hu ▸ hknown, fun src' data' lookup' u he hne hset hu ↦ ?_⟩
        cases he
        exact honly u hu ▸ hdelivered hset

end Session

/-- **The address of the client stays right exactly as long as no datagram can be mistaken** for one
of the client. -/
theorem client_intact_iff {tunnelOnly altDNSRouting blockQUIC : Bool} {now : ℤ} {client : Addr}
    {es : List Session.Event} {t : Session}
    (h : exec Session.step (.new tunnelOnly altDNSRouting blockQUIC now) es = some t)
    (hclient : ∀ e ∈ es, Session.FromClient client e) :
    Along Session.step (Session.Intact client)
        (.new tunnelOnly altDNSRouting blockQUIC now) es ↔
      Along Session.step (Session.Unmistakable client)
        (.new tunnelOnly altDNSRouting blockQUIC now) es :=
  Trace.along_iff_along (P := Session.Known client) (E := Session.FromClient client)
    (fun hs he hstep ↦ Session.intact_iff hs he hstep) (fun _ hintact hstep ↦ hintact.known _ hstep)
    (.inl rfl) hclient h

/-! ## A server that becomes the client -/

/-- The client. -/
def demoClient : Addr := ⟨[127, 0, 0, 1], 5000⟩

/-- A server that the client talks to. -/
def demoServer : Addr := ⟨[9, 9, 9, 9], 7000⟩

/-- Another one. -/
def demoOther : Addr := ⟨[8, 8, 8, 8], 7000⟩

/-- No host is known. -/
def noHosts : Lookup := fun _ ↦ .error "no such host"

/-- The client sends a datagram to a server, and is answered. -/
def answered : List Session.Event :=
  [.relay .again, .relay (.datagram demoClient [0, 0, 0, 1, 9, 9, 9, 9, 27, 88, 1] noHosts),
    .relay .forward, .relay (.route true), .relay .again,
    .relay (.datagram demoServer [2] noHosts)]

theorem client_intact_iff_answered :
    Along Session.step (Session.Intact demoClient) (.new false false false 0) answered ∧
      (exec Session.step (.new false false false 0) answered).map Session.written =
        some [([1], demoServer), (buildSOCKS5UDPHeader demoServer [2], demoClient)] := by
  have hrun : (exec Session.step (.new false false false 0) answered).map Session.written =
      some [([1], demoServer), (buildSOCKS5UDPHeader demoServer [2], demoClient)] := by
    decide +kernel
  obtain ⟨t, ht, -⟩ := Option.map_eq_some_iff.mp hrun
  exact ⟨(client_intact_iff ht (by decide +kernel)).mpr (by decide +kernel), hrun⟩

/-- The server answers with a datagram that has a header, for an address in the local network.  Then
another server sends a datagram. -/
def mistaken : List Session.Event :=
  [.relay .again, .relay (.datagram demoClient [0, 0, 0, 1, 9, 9, 9, 9, 27, 88, 1] noHosts),
    .relay .forward, .relay (.route true), .relay .again,
    .relay (.datagram demoServer [0, 0, 0, 1, 10, 0, 0, 1, 0, 80, 2] noHosts),
    .relay .forward, .relay (.route true), .relay .again,
    .relay (.datagram demoOther [3] noHosts)]

/-- The server is taken for the client: its datagram is forwarded, and it is sent what the other
server has sent to the client. -/
theorem server_becomes_client :
    (∀ e ∈ mistaken, Session.FromClient demoClient e) ∧
      ∃ t, exec Session.step (.new false false false 0) mistaken = some t ∧
        t.clientUDPAddr = some demoServer ∧
        t.written = [([1], demoServer), ([2], ⟨[10, 0, 0, 1], 80⟩),
          (buildSOCKS5UDPHeader demoOther [3], demoServer)] := by
  have hrun : (exec Session.step (.new false false false 0) mistaken).map
      (fun t ↦ (t.clientUDPAddr, t.written)) =
      some (some demoServer, [([1], demoServer), ([2], ⟨[10, 0, 0, 1], 80⟩),
        (buildSOCKS5UDPHeader demoOther [3], demoServer)]) := by decide +kernel
  obtain ⟨t, ht, hfacts⟩ := Option.map_eq_some_iff.mp hrun
  simp only [Prod.mk.injEq] at hfacts
  exact ⟨by decide +kernel, t, ht, hfacts⟩

end TunnelCat.Assoc
