import TunnelCat.Dht.Datagram
import TunnelCat.Lib.Trace

/-!
# Punching a hole

Two clients that know each other's address call `punch` at about the same time.  Each sends a probe
every 100 milliseconds, which opens its own router for the other, and reads until something comes
that opens under the key of the DHT and has the type of a probe; then it stops sending and returns
the connection.  Any error of `Read`, at the latest that of the deadline, makes it fail.

`Pair` is the two calls, each with its goroutine that sends, and what was sent to either of them.
Datagrams can be lost, delivered late, in another order or more than once, and anybody may send
something with the address of the peer.

* `connected_iff`: a call returns a connection if and only if a probe of the peer reaches it while
  it reads — probes are never cut off by the buffer of 256 bytes, whatever their padding, and
  nothing else is taken for one.
* `one_sided_iff`: the two need not agree.  A client stops sending as soon as it has succeeded, and
  the first tick is 100 milliseconds after the call.  If the probe of the other one comes before
  that, it may return without having sent anything, and then the other one can no longer succeed,
  unless somebody else sends it a probe.
-/

set_option autoImplicit false

open Function Trace

namespace TunnelCat.Dht.Punch

/-- The length of `buf`. -/
def bufSize : ℕ := 256

/-- What `punch` comes to. -/
inductive Result where
  /-- It reads. -/
  | reading
  /-- It has returned the connection. -/
  | connected
  /-- It has closed the connection and returned an error. -/
  | failed (err : String)
  /-- `dhtOpen` has panicked. -/
  | crashed
deriving DecidableEq

/-- A call of `punch`. -/
structure Side where
  /-- `peerAddr`. -/
  peerAddr : String
  /-- The reader. -/
  result : Result
  /-- `stop` is closed. -/
  stopped : Bool
  /-- The goroutine that sends has not returned. -/
  sending : Bool
  /-- `probesSent`. -/
  probesSent : ℕ

/-- Two calls that are to meet. -/
structure Pair where
  /-- The calls. -/
  side : Bool → Side
  /-- What was sent to each of them from the address of the other one. -/
  wire : Bool → List Bytes

/-- What happens. -/
inductive Event where
  /-- The ticker of a sender fires; nothing is drawn if `rand.Read` fails. -/
  | tick (i : Bool) (draws : Option Draws)
  /-- A sender sees that it is to stop. -/
  | quit (i : Bool)
  /-- Somebody sends something with the address of the peer. -/
  | inject (i : Bool) (pkt : Bytes)
  /-- `Read` returns one of the datagrams. -/
  | deliver (i : Bool) (n : ℕ)
  /-- `Read` returns an error. -/
  | readError (i : Bool) (err : String)

section

variable (A : ChaCha20Poly1305) (key : Key)

/-- A probe. -/
def probe (d : Draws) : Outcome Bytes := sealDatagram A key d MsgType.holePunch.code 1 none

/-- What the reader does with a datagram: what does not fit into the buffer is lost. -/
def Side.read (c : Side) (pkt : Bytes) : Side :=
  match openDatagram A key (pkt.take bufSize) with
  | .err _ => c
  | .panic => { c with result := .crashed }
  | .ok (msgType, _, _) =>
    if msgType ≠ MsgType.holePunch.code then c
    else { c with result := .connected, stopped := true }

/-- A datagram is taken for a probe. -/
def accepts (pkt : Bytes) : Bool :=
  match openDatagram A key (pkt.take bufSize) with
  | .ok (msgType, _, _) => msgType = MsgType.holePunch.code
  | _ => false

namespace Pair

/-- Two calls at their beginning. -/
def start (peerAddr : Bool → String) : Pair where
  side i := ⟨peerAddr i, .reading, false, true, 0⟩
  wire _ := []

/-- One of the calls changes. -/
def put (s : Pair) (i : Bool) (c : Side) : Pair := { s with side := update s.side i c }

/-- A datagram is sent to one of them. -/
def send (s : Pair) (i : Bool) (pkt : Bytes) : Pair :=
  { s with wire := update s.wire i (s.wire i ++ [pkt]) }

/-- One step. -/
def step (s : Pair) : Event → Option Pair
  | .tick i draws =>
    if (s.side i).sending then
      match draws.map (probe A key) with
      | some (.ok pkt) =>
        let t := s.put i { s.side i with probesSent := (s.side i).probesSent + 1 }
        match (s.side i).result with
        -- The socket is closed, and the error of `Write` is ignored.
        | .failed _ => some t
        | _ => some (t.send (!i) pkt)
      | _ => some s
    else none
  | .quit i =>
    if (s.side i).sending ∧ (s.side i).stopped then
      some (s.put i { s.side i with sending := false })
    else none
  | .inject i pkt => some (s.send i pkt)
  | .deliver i n =>
    match (s.side i).result, (s.wire i)[n]? with
    | .reading, some pkt => some (s.put i ((s.side i).read A key pkt))
    | _, _ => none
  | .readError i err =>
    match (s.side i).result with
    | .reading =>
      let msg := "punch: timeout waiting for peer " ++ (s.side i).peerAddr ++ ": " ++ err
      some (s.put i { s.side i with result := .failed msg, stopped := true })
    | _ => none

end Pair

/-! ## Probes -/

variable {A key}

/-- Nobody else sends what would be taken for a probe. -/
def Alone (A : ChaCha20Poly1305) (key : Key) (e : Event) : Prop :=
  ∀ i pkt, e = .inject i pkt → accepts A key pkt = false

/-- A probe is sealed, and has at most 46 bytes. -/
theorem exists_probe (d : Draws) :
    ∃ pkt, probe A key d = .ok pkt ∧ pkt.length ≤ 46 ∧
      openDatagram A key pkt = .ok (MsgType.holePunch.code, 1, []) := by
  have hpad := d.pad.2
  refine ⟨_, sealDatagram_eq A key d _ 1 rfl, ?_, ?_⟩
  · rw [sealPacket, List.length_append, A.length_seal, Vector.length_toList]
    simp only [List.length_cons, List.append_nil, overhead]
    omega
  · rw [openDatagram_eq, openPacket_sealPacket _ _ _ _ _ _ (by
      rw [List.length_nil, maxPlaintext]
      omega)]
    rfl

variable {pkt : Bytes} {j : Bool}

theorem accepts_probe {d : Draws} (h : probe A key d = .ok pkt) :
    accepts A key pkt = true := by
  obtain ⟨pkt', hpkt, hlen, hopen⟩ := @exists_probe A key d
  cases hpkt.symm.trans h
  rw [accepts, List.take_of_length_le (by rw [bufSize]; omega), hopen]
  rfl

theorem Side.read_of_accepts (c : Side) (h : accepts A key pkt = true) :
    c.read A key pkt = { c with result := .connected, stopped := true } := by
  rw [accepts] at h
  rw [read]
  split at h
  · rename_i hopen
    rw [hopen]
    exact if_neg (not_not.mpr (of_decide_eq_true h))
  · cases h

theorem Side.read_of_not_accepts (htag : A.StripsTag key.1) (c : Side)
    (h : accepts A key pkt = false) : c.read A key pkt = c := by
  rw [accepts] at h
  rw [read]
  rcases openDatagram_cases htag (pkt.take bufSize) with
    ⟨msg, hopen⟩ | ⟨msgType, ttl, padLen, rest, -, -, hopen⟩
  · rw [hopen]
  · rw [hopen] at h ⊢
    exact if_pos (of_decide_eq_false h)

theorem accepts_of_read (htag : A.StripsTag key.1) {c : Side} (hc : c.result ≠ .connected)
    (h : (c.read A key pkt).result = .connected) :
    accepts A key pkt = true := by
  by_contra hacc
  rw [Side.read_of_not_accepts htag c (Bool.not_eq_true _ ▸ hacc)] at h
  exact hc h

/-! ## Steps -/

/-- What a step can be. -/
inductive Moves (A : ChaCha20Poly1305) (key : Key) (s : Pair) : Event → Pair → Prop
  /-- A probe is sent. -/
  | probed {i : Bool} {d : Draws} {pkt : Bytes} (hsend : (s.side i).sending = true)
      (hopen : ∀ msg, (s.side i).result ≠ .failed msg) (hprobe : probe A key d = .ok pkt) :
      Moves A key s (.tick i (some d))
        ((s.put i { s.side i with probesSent := (s.side i).probesSent + 1 }).send (!i) pkt)
  /-- A probe is not sent, as the socket is closed. -/
  | unsent {i : Bool} {d : Draws} (hsend : (s.side i).sending = true) :
      Moves A key s (.tick i (some d))
        (s.put i { s.side i with probesSent := (s.side i).probesSent + 1 })
  /-- A probe cannot be made. -/
  | idle {i : Bool} {draws : Option Draws} : Moves A key s (.tick i draws) s
  /-- A sender returns. -/
  | quit {i : Bool} : Moves A key s (.quit i) (s.put i { s.side i with sending := false })
  /-- Somebody else sends. -/
  | injected {i : Bool} {pkt : Bytes} : Moves A key s (.inject i pkt) (s.send i pkt)
  /-- Something is read. -/
  | read {i : Bool} {n : ℕ} {pkt : Bytes} (hpc : (s.side i).result = .reading)
      (hpkt : (s.wire i)[n]? = some pkt) :
      Moves A key s (.deliver i n) (s.put i ((s.side i).read A key pkt))
  /-- Reading fails. -/
  | failed {i : Bool} {err msg : String} (hpc : (s.side i).result = .reading) :
      Moves A key s (.readError i err)
        (s.put i { s.side i with result := .failed msg, stopped := true })

variable {s t u v : Pair} {e : Event} {i : Bool}

theorem moves_of_step (h : s.step A key e = some t) : Moves A key s e t := by
  cases e with
  | tick i draws =>
    rw [Pair.step] at h
    split at h
    · rename_i hsend
      split at h
      · rename_i pkt hdraws
        obtain ⟨d, rfl, hprobe⟩ := Option.map_eq_some_iff.mp hdraws
        dsimp only at h
        split at h
        · exact Option.some_inj.mp h ▸ .unsent hsend
        · rename_i hopen
          exact Option.some_inj.mp h ▸ .probed hsend hopen hprobe
      · exact Option.some_inj.mp h ▸ .idle
    · cases h
  | quit i =>
    rw [Pair.step] at h
    split at h
    · exact Option.some_inj.mp h ▸ .quit
    · cases h
  | inject i pkt => exact Option.some_inj.mp h ▸ .injected
  | deliver i n =>
    rw [Pair.step] at h
    split at h
    · rename_i pkt hpc hpkt
      exact Option.some_inj.mp h ▸ .read hpc hpkt
    · cases h
  | readError i err =>
    rw [Pair.step] at h
    split at h
    · rename_i hpc
      exact Option.some_inj.mp h ▸ .failed hpc
    · cases h

theorem side_put (s : Pair) (i : Bool) (c : Side) (j : Bool) :
    (s.put i c).side j = if j = i then c else s.side j := by
  rw [Pair.put]
  exact update_apply ..

theorem wire_send (s : Pair) (i : Bool) (pkt : Bytes) (j : Bool) :
    (s.send i pkt).wire j = if j = i then s.wire i ++ [pkt] else s.wire j := by
  rw [Pair.send]
  exact update_apply ..

/-- The reader leaves the sender alone. -/
theorem Side.sending_read (c : Side) (pkt : Bytes) :
    (c.read A key pkt).sending = c.sending := by
  rw [read]
  split
  · rfl
  · rfl
  · split <;> rfl

theorem keep_put {c : Side} (hres : c.result = (s.side i).result)
    (hsend : c.sending = true → (s.side i).sending = true) (j : Bool) :
    ((s.put i c).side j).result = (s.side j).result ∧
      (((s.put i c).side j).sending = true → (s.side j).sending = true) := by
  rw [side_put]
  split_ifs with hj
  · rw [hj]
    exact ⟨hres, hsend⟩
  · exact ⟨rfl, id⟩

/-- The result of a call changes only when it reads, and a sender that has returned stays so. -/
theorem Moves.side (h : Moves A key s e t) (j : Bool) :
    (t.side j).result = (s.side j).result ∧
        ((t.side j).sending = true → (s.side j).sending = true) ∨
      (s.side j).result = .reading ∧
        ((∃ msg, (t.side j).result = .failed msg) ∨
          ∃ n pkt, e = .deliver j n ∧ (s.wire j)[n]? = some pkt ∧
            t.side j = (s.side j).read A key pkt) := by
  cases h with
  | probed => exact .inl (keep_put (by rfl) (by exact id) j)
  | unsent => exact .inl (keep_put (by rfl) (by exact id) j)
  | idle | injected => exact .inl ⟨rfl, id⟩
  | quit => exact .inl (keep_put (by rfl) (by simp) j)
  | @read i n pkt hpc hpkt =>
    by_cases hj : j = i
    · subst hj
      exact .inr ⟨hpc, .inr ⟨n, pkt, rfl, hpkt, by rw [side_put, if_pos rfl]⟩⟩
    · exact .inl (by rw [side_put, if_neg hj]; exact ⟨rfl, id⟩)
  | @failed i err msg hpc =>
    by_cases hj : j = i
    · subst hj
      exact .inr ⟨hpc, .inl ⟨msg, by rw [side_put, if_pos rfl]⟩⟩
    · exact .inl (by rw [side_put, if_neg hj]; exact ⟨rfl, id⟩)

/-- A call can still send a probe: its sender has not returned, and its socket is not closed. -/
def Side.MaySend (c : Side) : Prop := c.sending = true ∧ ∀ msg, c.result ≠ .failed msg

theorem Moves.maySend (h : Moves A key s e t) (ht : (t.side j).MaySend) :
    (s.side j).MaySend := by
  obtain ⟨hsend, hopen⟩ := ht
  rcases h.side j with ⟨hsame, hkeep⟩ | ⟨hpc, ⟨msg, hfail⟩ | ⟨n, pkt, -, -, hread⟩⟩
  · exact ⟨hkeep hsend, hsame ▸ hopen⟩
  · exact absurd hfail (hopen msg)
  · rw [hread, Side.sending_read] at hsend
    exact ⟨hsend, fun msg hfail ↦ absurd (hfail.symm.trans hpc) (by simp)⟩

/-- What is on the wire was sent. -/
theorem Moves.wire (h : Moves A key s e t) (hpkt : pkt ∈ t.wire j) :
    pkt ∈ s.wire j ∨ e = .inject j pkt ∨
      (s.side (!j)).MaySend ∧ ∃ d, probe A key d = .ok pkt := by
  cases h with
  | @probed i d pkt' hsend hopen hprobe =>
    rw [wire_send] at hpkt
    split_ifs at hpkt with hj
    · subst hj
      rcases List.mem_append.mp hpkt with hold | hnew
      · exact .inl hold
      · rw [List.mem_singleton.mp hnew]
        rw [Bool.not_not]
        exact .inr (.inr ⟨⟨hsend, hopen⟩, d, hprobe⟩)
    · exact .inl hpkt
  | @injected i pkt' =>
    rw [wire_send] at hpkt
    split_ifs at hpkt with hj
    · subst hj
      rcases List.mem_append.mp hpkt with hold | hnew
      · exact .inl hold
      · exact .inr (.inl (by rw [List.mem_singleton.mp hnew]))
    · exact .inl hpkt
  | _ => exact .inl hpkt

/-! ## Runs -/

/-- What holds in every state, if nobody else sends probes. -/
structure Inv (A : ChaCha20Poly1305) (key : Key) (s : Pair) : Prop where
  /-- What is taken for a probe is one. -/
  genuine : ∀ j, ∀ pkt ∈ s.wire j, accepts A key pkt = true → ∃ d, probe A key d = .ok pkt
  /-- Nothing that is read makes a call panic. -/
  alive : ∀ j, (s.side j).result ≠ .crashed

theorem inv_start (peerAddr : Bool → String) : Inv A key (.start peerAddr) where
  genuine _ _ h := by cases h
  alive _ h := by cases h

theorem inv_step (htag : A.StripsTag key.1) (h : Inv A key s) (he : Alone A key e)
    (hstep : s.step A key e = some t) : Inv A key t := by
  have hmoves := moves_of_step hstep
  refine ⟨fun j pkt hpkt hacc ↦ ?_, fun j hcrash ↦ ?_⟩
  · rcases hmoves.wire hpkt with hold | hinj | ⟨-, hnew⟩
    · exact h.genuine j pkt hold hacc
    · exact absurd (hacc.symm.trans (he j pkt hinj)) (by decide)
    · exact hnew
  · rcases hmoves.side j with ⟨hsame, -⟩ | ⟨hpc, ⟨msg, hfail⟩ | ⟨n, pkt, -, -, hread⟩⟩
    · exact h.alive j (hsame ▸ hcrash)
    · exact absurd (hcrash.symm.trans hfail) (by simp)
    · cases hacc : accepts A key pkt with
      | true =>
        rw [hread, Side.read_of_accepts _ hacc] at hcrash
        cases hcrash
      | false =>
        rw [hread, Side.read_of_not_accepts htag _ hacc, hpc] at hcrash
        cases hcrash

theorem inv_of_exec (htag : A.StripsTag key.1) {es : List Event} (hs : Inv A key s)
    (hes : ∀ e ∈ es, Alone A key e) (h : exec (Pair.step A key) s es = some t) :
    Inv A key t :=
  inv_of_exec_along (fun hinv he hstep ↦ inv_step htag hinv he hstep) hs
    (along_of_forall_mem hes s) h

/-- A call that has returned stays so. -/
theorem connected_of_exec {es : List Event} (hs : (s.side i).result = .connected)
    (h : exec (Pair.step A key) s es = some t) : (t.side i).result = .connected := by
  refine Trace.inv_of_exec (P := fun s ↦ (s.side i).result = .connected) ?_ hs h
  intro s e t hs hstep
  rcases (moves_of_step hstep).side i with ⟨hsame, -⟩ | ⟨hpc, -⟩
  · rw [hsame, hs]
  · exact absurd (hs.symm.trans hpc) (by simp)

/-- **A call succeeds if and only if it hears its peer.**  In any run in which nobody else sends
something that is taken for a probe, `punch` returns the connection exactly if one of the probes of
its peer is delivered to it while it reads, whatever padding was drawn for it; and it never panics,
whatever is sent to it. -/
theorem connected_iff (htag : A.StripsTag key.1) {peerAddr : Bool → String} {es : List Event}
    (hes : ∀ e ∈ es, Alone A key e)
    (h : exec (Pair.step A key) (.start peerAddr) es = some t) (i : Bool) :
    (t.side i).result ≠ .crashed ∧
    ((t.side i).result = .connected ↔
      ∃ before n after s d pkt, es = before ++ .deliver i n :: after ∧
        exec (Pair.step A key) (.start peerAddr) before = some s ∧
        (s.side i).result = .reading ∧ (s.wire i)[n]? = some pkt ∧ probe A key d = .ok pkt) := by
  refine ⟨(inv_of_exec htag (inv_start _) hes h).alive i, fun hconn ↦ ?_, ?_⟩
  · obtain ⟨before, e, after, s, u, rfl, hs, hstep, -, hnot, hnow⟩ :=
      exists_step_of_exec (P := fun s ↦ (s.side i).result = .connected)
        (by simp [Pair.start]) hconn h
    have hinv : Inv A key s := inv_of_exec htag (inv_start _)
      (fun e he ↦ hes e (List.mem_append_left _ he)) hs
    rcases (moves_of_step hstep).side i with
      ⟨hsame, -⟩ | ⟨hpc, ⟨msg, hfail⟩ | ⟨n, pkt, rfl, hpkt, hread⟩⟩
    · exact absurd (hsame ▸ hnow) hnot
    · exact absurd (hnow.symm.trans hfail) (by simp)
    · obtain ⟨d, hprobe⟩ := hinv.genuine i pkt (List.mem_of_getElem? hpkt)
        (accepts_of_read htag hnot (hread ▸ hnow))
      exact ⟨before, n, after, s, d, pkt, rfl, hs, hpc, hpkt, hprobe⟩
  · rintro ⟨before, n, after, s, d, pkt, rfl, hs, hpc, hpkt, hprobe⟩
    obtain ⟨s', hs', hrest⟩ := Trace.exec_append.mp h
    cases hs.symm.trans hs'
    obtain ⟨u, hstep, hrest⟩ := Trace.exec_cons_eq_some.mp hrest
    refine connected_of_exec ?_ hrest
    rw [Pair.step, hpc, hpkt, Option.some_inj] at hstep
    rw [← hstep, side_put, if_pos rfl, Side.read_of_accepts _ (accepts_probe hprobe)]

/-- The second client sends a probe before the first tick of the other one, which gets it and
stops. -/
def heardEarly : List Event := [.tick true (some demoDraws), .deliver false 0, .quit false]

theorem exec_heardEarly :
    (exec (Pair.step nullAead zeroKey) (.start fun _ ↦ "") heardEarly).map
        (fun s ↦ ((s.side false).result, (s.side false).sending, (s.side false).probesSent)) =
      some (.connected, false, 0) := by
  decide +kernel

theorem connected_iff_heardEarly :
    ∃ before n after s d pkt, heardEarly = before ++ .deliver false n :: after ∧
      exec (Pair.step nullAead zeroKey) (.start fun _ ↦ "") before = some s ∧
      (s.wire false)[n]? = some pkt ∧ probe nullAead zeroKey d = .ok pkt := by
  obtain ⟨t, ht, hsum⟩ := Option.map_eq_some_iff.mp exec_heardEarly
  have hes : ∀ e ∈ heardEarly, Alone nullAead zeroKey e := by simp [heardEarly, Alone]
  obtain ⟨before, n, after, s, d, pkt, heq, hs, -, hpkt, hprobe⟩ :=
    (connected_iff (nullAead_stripsTag _) hes ht false).2.mp (congrArg (·.1) hsum)
  exact ⟨before, n, after, s, d, pkt, heq, hs, hpkt, hprobe⟩

/-- The peer of a call has not succeeded, no probe is on the way to it, and the call cannot send
one. -/
structure CutOff (A : ChaCha20Poly1305) (key : Key) (i : Bool) (s : Pair) : Prop where
  wire : ∀ pkt ∈ s.wire (!i), accepts A key pkt = false
  mute : ¬ (s.side i).MaySend
  result : (s.side (!i)).result ≠ .connected

theorem CutOff.step (htag : A.StripsTag key.1) (h : CutOff A key i s) (he : Alone A key e)
    (hstep : s.step A key e = some t) : CutOff A key i t := by
  have hmoves := moves_of_step hstep
  refine ⟨fun pkt hpkt ↦ ?_, fun hsend ↦ h.mute (hmoves.maySend hsend), fun hconn ↦ ?_⟩
  · rcases hmoves.wire hpkt with hold | hinj | ⟨hsend, -⟩
    · exact h.wire pkt hold
    · exact he _ pkt hinj
    · exact absurd (Bool.not_not i ▸ hsend) h.mute
  · rcases hmoves.side (!i) with ⟨hsame, -⟩ | ⟨-, ⟨msg, hfail⟩ | ⟨n, pkt, -, hpkt, hread⟩⟩
    · exact h.result (hsame ▸ hconn)
    · exact absurd (hconn.symm.trans hfail) (by simp)
    · have hacc := accepts_of_read htag h.result (hread ▸ hconn)
      exact absurd (hacc.symm.trans (h.wire pkt (List.mem_of_getElem? hpkt))) (by decide)

/-- A datagram that is taken for a probe makes a call succeed. -/
theorem exists_connected (hpc : (s.side i).result = .reading) (hpkt : pkt ∈ s.wire i)
    (hacc : accepts A key pkt = true) :
    ∃ n t, s.step A key (.deliver i n) = some t ∧ (t.side i).result = .connected := by
  obtain ⟨n, hn⟩ := List.mem_iff_getElem?.mp hpkt
  refine ⟨n, s.put i ((s.side i).read A key pkt), ?_, ?_⟩
  · rw [Pair.step, hpc, hn]
  · rw [side_put, if_pos rfl, Side.read_of_accepts _ hacc]

/-- A call that can still send a probe does. -/
theorem exists_probed (h : (s.side i).MaySend) (d : Draws) :
    ∃ pkt t, s.step A key (.tick i (some d)) = some t ∧ pkt ∈ t.wire (!i) ∧
      accepts A key pkt = true ∧ (t.side (!i)).result = (s.side (!i)).result := by
  obtain ⟨pkt, hprobe, -⟩ := @exists_probe A key d
  obtain ⟨hsend, hopen⟩ := h
  refine ⟨pkt, (s.put i { s.side i with probesSent := (s.side i).probesSent + 1 }).send (!i) pkt,
    ?_, ?_, accepts_probe hprobe, ?_⟩
  · rw [Pair.step, if_pos hsend, Option.map_some, hprobe]
    dsimp only
    split
    · rename_i msg hfail
      exact absurd hfail (hopen msg)
    · rfl
  · rw [wire_send, if_pos rfl]
    exact List.mem_append_right _ (List.mem_singleton_self _)
  · rw [Pair.send, side_put, if_neg (Bool.not_ne_self i)]

/-- **Success can be one-sided.**  A call that still reads can succeed, in some continuation in
which nobody else sends something that is taken for a probe, if and only if such a datagram has been
sent to it, or its peer can still send one.  So a peer that has returned without having sent a
probe, and whose sender has returned too, leaves the call without success. -/
theorem one_sided_iff (htag : A.StripsTag key.1) (hpc : (s.side (!i)).result = .reading) :
    (∃ fs t, (∀ e ∈ fs, Alone A key e) ∧ exec (Pair.step A key) s fs = some t ∧
      (t.side (!i)).result = .connected) ↔
    (∃ pkt ∈ s.wire (!i), accepts A key pkt = true) ∨
      (s.side i).sending = true ∧ ∀ msg, (s.side i).result ≠ .failed msg := by
  refine ⟨?_, ?_⟩
  · rintro ⟨fs, t, hfs, hrun, hconn⟩
    by_contra hno
    rw [not_or, not_exists] at hno
    have hcut : CutOff A key i s := by
      refine ⟨fun pkt hpkt ↦ ?_, hno.2, by rw [hpc]; simp⟩
      exact (Bool.not_eq_true _).mp fun hacc ↦ hno.1 pkt ⟨hpkt, hacc⟩
    exact (inv_of_exec_along (fun h he hstep ↦ CutOff.step htag h he hstep) hcut
      (along_of_forall_mem hfs s) hrun).result hconn
  · rintro (⟨pkt, hpkt, hacc⟩ | hsend)
    · obtain ⟨n, t, hstep, hconn⟩ := exists_connected hpc hpkt hacc
      exact ⟨[.deliver (!i) n], t, by simp [Alone], Trace.exec_cons_eq_some.mpr ⟨t, hstep, rfl⟩,
        hconn⟩
    · obtain ⟨pkt, u, htick, hpkt, hacc, hsame⟩ := @exists_probed A key _ _ hsend demoDraws
      obtain ⟨n, t, hstep, hconn⟩ := exists_connected (hsame.trans hpc) hpkt hacc
      exact ⟨[.tick i (some demoDraws), .deliver (!i) n], t, by simp [Alone],
        Trace.exec_cons_eq_some.mpr ⟨u, htick, Trace.exec_cons_eq_some.mpr ⟨t, hstep, rfl⟩⟩, hconn⟩

/-- After that the first client is connected, and the second one can no longer be. -/
theorem one_sided_iff_heardEarly :
    ∃ s, exec (Pair.step nullAead zeroKey) (.start fun _ ↦ "") heardEarly = some s ∧
      (s.side false).result = .connected ∧
      ¬ ∃ fs t, (∀ e ∈ fs, Alone nullAead zeroKey e) ∧
        exec (Pair.step nullAead zeroKey) s fs = some t ∧
          (t.side true).result = .connected := by
  have hsummary : (exec (Pair.step nullAead zeroKey) (.start fun _ ↦ "") heardEarly).map
      (fun s ↦ ((s.side false).result, (s.side false).sending, (s.side true).result,
        s.wire true)) = some (.connected, false, .reading, []) := by
    decide +kernel
  obtain ⟨s, hs, hsum⟩ := Option.map_eq_some_iff.mp hsummary
  simp only [Prod.mk.injEq] at hsum
  obtain ⟨hconn, hoff, hread, hwire⟩ := hsum
  refine ⟨s, hs, hconn, fun hex ↦ ?_⟩
  rcases (one_sided_iff (i := false) (nullAead_stripsTag _) hread).mp hex with
    ⟨pkt, hpkt, -⟩ | ⟨hsend, -⟩
  · rw [Bool.not_false, hwire] at hpkt
    cases hpkt
  · exact absurd (hsend.symm.trans hoff) (by decide)

end

end TunnelCat.Dht.Punch
