import TunnelCat.Session.Conn

/-!
# Writing through the pipeline

On a connection that streams, `Write` does not wait for its request.  It takes one of the slots of a
semaphore, draws a number, leaves a copy of the payload to a goroutine and returns.  The goroutine
sends, stores an error if it is the first one, and gives the slot back.

Two things are counted.  A slot is taken by a sender or by a `Write` that is about to start one
(`PipeInv.slots`), so there are never more senders than slots.  And the requests after the first
are numbered from one without a gap, in the order in which they were made (`PipeInv.requests`);
those of `Write` carry the payloads of the calls that succeeded, one by one.

An error that is stored stays stored, and a `Write` looks at it before anything else
(`Stopped`).
-/

set_option autoImplicit false

namespace TunnelCat.Session

open Trace

/-- The slots a `Write` has taken for itself. -/
def Writer.slots : Writer → ℕ
  | .acquired _ | .rejected _ _ | .launching _ => 1
  | _ => 0

/-- The reader is not in the polling mode. -/
def Reader.NotPolling : Reader → Prop
  | .polling _ | .numbering _ | .polled _ | .failed | .requeueing _ _ => False
  | _ => True

namespace Conn

/-- The requests that `Write` has made. -/
def writes (c : Conn) : List Request := c.sends.filter fun r ↦ r.caller = .write

/-- The payloads of the calls of `Write` that have succeeded. -/
def accepted (c : Conn) : List Bytes :=
  c.results.filterMap fun r ↦
    match r.2 with
    | .ok _ => some r.1
    | _ => none

/-- The requests of a connection whose first request was sent `k` times, and the number of the next
one. -/
structure Numbered (k seq : ℕ) (sends : List Request) : Prop where
  /-- Before the requests that are counted come the first ones. -/
  probes : sends.take k = List.replicate k ⟨.probe, 0, []⟩
  /-- The numbers are those from one on. -/
  seqs : (sends.drop k).map Request.seq = List.range' 1 (seq - 1)
  /-- The next number. -/
  next : 1 ≤ seq
  /-- All first requests have been made. -/
  length : k ≤ sends.length

/-- **The invariant** of a connection with a pipeline. -/
structure PipeInv (k : ℕ) (c : Conn) : Prop where
  /-- There is a stream. -/
  streaming : c.streaming = true
  /-- There is a pipeline. -/
  pipeline : 0 < c.pipeWidth
  /-- The reader makes no requests. -/
  reader : c.reader.NotPolling
  /-- The writer uses the pipeline. -/
  writer : c.writer.Pipelined
  /-- Who has the slots. -/
  slots : c.slots = c.senders.length + c.writer.slots
  /-- There are not more of them than there are. -/
  bounded : c.slots ≤ c.pipeWidth
  /-- A sender sends one of the requests of `Write`. -/
  senders : ∀ s ∈ c.senders, ⟨.write, s.seq, s.data⟩ ∈ c.sends
  /-- The requests are numbered. -/
  requests : Numbered k c.seq c.sends
  /-- The requests of `Write` are its successes. -/
  payloads : c.writes.map Request.payload = c.accepted

variable {k : ℕ} {c t : Conn}

/-- The next request. -/
theorem Numbered.concat {seq : ℕ} {sends : List Request} (h : Numbered k seq sends) (w : Caller)
    (p : Bytes) : Numbered k (seq + 1) (sends ++ [⟨w, seq, p⟩]) := by
  have hnext := h.next
  refine ⟨?_, ?_, by omega, by simpa using h.length.trans (Nat.le_succ _)⟩
  · rw [List.take_append_of_le_length h.length, h.probes]
  · rw [List.drop_append_of_le_length h.length, List.map_append, h.seqs, List.map_singleton,
      show seq + 1 - 1 = seq - 1 + 1 by omega, List.range'_concat]
    simp only [List.append_cancel_left_eq, List.cons.injEq, and_true]
    omega

/-! ## Each step keeps it -/

/-- What a reader that does not poll and the stream loop change does not matter. -/
theorem PipeInv.frame (h : PipeInv k c) (r : Reader) (hr : r.NotPolling)
    (readBuf delivered streamed : Bytes) (chan : List Chunk) (chanClosed errClosed : Bool)
    (pool : BufPool) (loop : Loop) (openErrors flaps renewals streamDead : ℕ) :
    PipeInv k { c with
      reader := r
      readBuf := readBuf
      delivered := delivered
      streamed := streamed
      chan := chan
      chanClosed := chanClosed
      errClosed := errClosed
      pool := pool
      loop := loop
      openErrors := openErrors
      flaps := flaps
      renewals := renewals
      streamDead := streamDead } :=
  { h with reader := hr }

theorem PipeInv.readStep (h : PipeInv k c) {e : ReadEvent} (hs : c.readStep e = some t) :
    PipeInv k t := by
  have hrd := h.reader
  unfold Conn.readStep at hs
  split at hs <;> rename_i hr
  all_goals first | rw [hr] at hrd | skip
  case h_9 | h_10 | h_11 | h_12 | h_13 | h_14 | h_15 => exact hrd.elim
  case h_2 =>
    split at hs <;> cases hs
    · rw [if_pos h.streaming]
      exact h.frame (.selecting _) trivial ..
    · exact h.frame .idle trivial ..
  case h_6 =>
    cases hs
    split
    · exact h.frame (.copied _ _) trivial ..
    · exact h.frame (.putting _) trivial ..
  all_goals repeat' split at hs
  all_goals cases hs
  all_goals exact h.frame _ (by trivial) ..

theorem PipeInv.renewOrGiveUp (h : PipeInv k c) : PipeInv k c.renewOrGiveUp := by
  unfold Conn.renewOrGiveUp
  split <;> exact h.frame _ h.reader ..

theorem PipeInv.loopStep (h : PipeInv k c) {e : LoopEvent} (hs : c.loopStep e = some t) :
    PipeInv k t := by
  unfold Conn.loopStep at hs
  split at hs
  case h_4 =>
    split at hs <;> cases hs
    · exact (h.frame _ h.reader ..).renewOrGiveUp
    · exact h.frame _ h.reader ..
  case h_8 =>
    obtain ⟨_, _, rfl⟩ := Option.map_eq_some_iff.mp hs
    exact h.frame _ h.reader ..
  case h_9 =>
    repeat' split at hs
    all_goals cases hs
    · exact h.frame (.received _ _) trivial ..
    · exact h.frame _ h.reader ..
  case h_11 =>
    repeat' split at hs
    all_goals cases hs
    · exact (h.frame _ h.reader ..).renewOrGiveUp
    · exact h.frame _ h.reader ..
    · exact h.frame _ h.reader ..
  all_goals repeat' split at hs
  all_goals cases hs
  all_goals exact h.frame _ h.reader ..

/-- `Close` makes one more request. -/
theorem PipeInv.closeStep (h : PipeInv k c) {e : CloseEvent} (hs : c.closeStep e = some t) :
    PipeInv k t := by
  unfold Conn.closeStep at hs
  split at hs <;> cases hs
  · exact { h with }
  · refine { h with senders := ?_, requests := h.requests.concat .close [], payloads := ?_ }
    · exact fun s hs ↦ List.mem_append_left _ (h.senders s hs)
    · simpa [writes, accepted] using h.payloads

theorem PipeInv.senderStep (h : PipeInv k c) {i : ℕ} {e : SenderEvent}
    (hs : c.senderStep i e = some t) : PipeInv k t := by
  obtain ⟨s, hi, hs⟩ := Option.bind_eq_some_iff.mp hs
  have hslots := h.slots
  have hbounded := h.bounded
  obtain ⟨hlt, hget⟩ := List.getElem?_eq_some_iff.mp hi
  -- The sender stays the one of its request.
  have hset : ∀ st, ∀ s' ∈ c.senders.set i { s with state := st },
      ⟨.write, s'.seq, s'.data⟩ ∈ c.sends := by
    intro st s' hs'
    rcases List.mem_or_eq_of_mem_set hs' with hs' | rfl
    · exact h.senders s' hs'
    · exact h.senders s (List.mem_of_getElem? hi)
  split at hs <;> cases hs
  · exact { h with slots := by simpa using hslots, senders := hset _ }
  · exact { h with slots := by simpa using hslots, senders := hset _ }
  · exact { h with slots := by simpa using hslots, senders := hset _ }
  · refine { h with slots := ?_, bounded := ?_, senders := ?_ }
    · simp only [List.length_eraseIdx_of_lt hlt]
      omega
    · exact (Nat.sub_le _ _).trans hbounded
    · exact fun s' hs' ↦ h.senders s' (List.mem_of_mem_eraseIdx hs')

/-- `Write` goes on. -/
theorem PipeInv.moveWriter (h : PipeInv k c) (w : Writer) (hw : w.Pipelined) {slots : ℕ}
    (hslots : slots = c.senders.length + w.slots) (hb : slots ≤ c.pipeWidth) :
    PipeInv k { c with writer := w, slots := slots } :=
  { h with writer := hw, slots := hslots, bounded := hb }

/-- `Write` fails, and has no slot any more. -/
theorem PipeInv.fail (h : PipeInv k c) {slots : ℕ} (hslots : slots = c.senders.length) (p : Bytes)
    (err : String) : PipeInv k (returned { c with slots := slots } p (.err err)) := by
  have hle : c.senders.length ≤ c.pipeWidth := by
    have := h.slots
    have := h.bounded
    omega
  refine { h with writer := trivial, slots := hslots, bounded := hslots ▸ hle, payloads := ?_ }
  simpa [returned, writes, accepted] using h.payloads

/-- `Write` starts a sender, to which its slot goes, and succeeds. -/
theorem PipeInv.launch (h : PipeInv k c) {p : Bytes} (hw : c.writer = .launching p) :
    PipeInv k (returned { c with
      seq := c.seq + 1
      senders := c.senders ++ [⟨c.seq, p, .flying⟩]
      sends := c.sends ++ [⟨.write, c.seq, p⟩] } p (.ok p.length)) := by
  have hslots := h.slots
  have hpayloads := h.payloads
  rw [hw] at hslots
  refine { h with
    writer := trivial
    slots := by simpa [returned, Writer.slots] using hslots
    senders := ?_
    requests := h.requests.concat .write p
    payloads := ?_ }
  · intro s hs
    rcases List.mem_append.mp hs with hs | hs
    · exact List.mem_append_left _ (h.senders s hs)
    · rw [List.mem_singleton.mp hs]
      exact List.mem_append_right _ (List.mem_singleton_self _)
  · rw [writes, accepted] at hpayloads
    simp [returned, writes, accepted, hpayloads]

theorem PipeInv.writeStep (h : PipeInv k c) {e : WriteEvent} (hs : c.writeStep e = some t) :
    PipeInv k t := by
  have hwr := h.writer
  have hslots := h.slots
  have hbounded := h.bounded
  unfold Conn.writeStep at hs
  split at hs <;> rename_i hw
  all_goals first | rw [hw] at hwr hslots | skip
  case h_1 =>
    cases hs
    exact h.moveWriter (.entered _) trivial hslots hbounded
  case h_2 =>
    split at hs <;> cases hs
    · exact h.fail hslots ..
    · exact h.moveWriter (.checked _) trivial hslots hbounded
  case h_3 =>
    split at hs <;> cases hs
    · exact h.fail hslots ..
    · rw [if_pos h.pipeline]
      exact h.moveWriter (.acquiring _) trivial hslots hbounded
  case h_4 =>
    split at hs <;> cases hs
    rename_i hfree
    exact h.moveWriter (.acquired _) trivial (congrArg Nat.succ hslots) hfree
  case h_5 =>
    split at hs <;> cases hs
    exact h.fail hslots ..
  case h_6 =>
    split at hs <;> cases hs
    · exact h.moveWriter (.rejected _ _) trivial hslots hbounded
    · exact h.moveWriter (.launching _) trivial hslots hbounded
  case h_7 =>
    cases hs
    exact h.fail (by rw [hslots]; rfl) ..
  case h_8 =>
    cases hs
    exact h.launch hw
  case h_13 => exact absurd hs (by simp)
  all_goals exact hwr.elim

theorem PipeInv.step (h : PipeInv k c) {e : Event} (hs : c.step e = some t) : PipeInv k t := by
  cases e with
  | read e => exact h.readStep hs
  | write e => exact h.writeStep hs
  | sender i e => exact h.senderStep hs
  | loop e => exact h.loopStep hs
  | close e => exact h.closeStep hs
  | pool e =>
    obtain ⟨p, _, rfl⟩ := Option.map_eq_some_iff.mp hs
    exact h.frame _ h.reader ..

theorem pipeInv_established {pipeWidth : ℕ} (hp : 0 < pipeWidth) (chanDepth : ℕ) (pool : BufPool)
    (k : ℕ) (resp : Bytes) : PipeInv k (established true pipeWidth chanDepth pool k resp) where
  streaming := rfl
  pipeline := hp
  reader := trivial
  writer := trivial
  slots := rfl
  bounded := Nat.zero_le _
  senders := fun s hs ↦ absurd hs (by simp [established, newTunnelConn])
  requests := ⟨by simp [established], by simp [established], le_rfl, by simp [established]⟩
  payloads := by simp [established, newTunnelConn, writes, accepted]

/-! ## After an error -/

/-- What `Write` leaves behind since the state `c₁`, when an error is stored: nothing but calls that
returned it. -/
structure Stopped (err : String) (c₁ c : Conn) : Prop where
  /-- The error stays. -/
  pipeErr : c.pipeErr = some err
  /-- A call does not get past its first look at the error. -/
  writer : c.writer = .idle ∨ ∃ p, c.writer = .entered p
  /-- There are no new requests. -/
  writes : c.writes = c₁.writes
  /-- All new results are the error. -/
  results : ∃ rs, c.results = c₁.results ++ rs ∧ ∀ r ∈ rs, r.2 = .err err

variable {err : String} {c₁ : Conn}

theorem Stopped.congr (h : Stopped err c₁ c) (he : t.pipeErr = c.pipeErr)
    (hw : t.writer = c.writer) (hs : t.writes = c.writes) (hr : t.results = c.results) :
    Stopped err c₁ t :=
  ⟨he.trans h.pipeErr, by rw [hw]; exact h.writer, hs.trans h.writes, by rw [hr]; exact h.results⟩

theorem Stopped.readStep (h : Stopped err c₁ c) {e : ReadEvent} (hs : c.readStep e = some t) :
    Stopped err c₁ t := by
  unfold Conn.readStep at hs
  split at hs
  case h_10 =>
    cases hs
    exact h.congr rfl rfl (by simp [Conn.writes]) rfl
  all_goals repeat' split at hs
  all_goals cases hs <;> exact h.congr rfl rfl rfl rfl

theorem Stopped.writeStep (h : Stopped err c₁ c) {e : WriteEvent} (hs : c.writeStep e = some t) :
    Stopped err c₁ t := by
  have hwr := h.writer
  unfold Conn.writeStep at hs
  split at hs <;> rename_i hw
  case h_1 p =>
    cases hs
    exact ⟨h.pipeErr, Or.inr ⟨p, rfl⟩, h.writes, h.results⟩
  case h_2 p =>
    obtain ⟨rs, hrs, hall⟩ := h.results
    rw [h.pipeErr] at hs
    cases hs
    refine ⟨h.pipeErr, Or.inl rfl, h.writes, rs ++ [(p, .err err)], ?_, ?_⟩
    · simp [returned, hrs]
    · intro r hr
      rcases List.mem_append.mp hr with hr | hr
      · exact hall r hr
      · rw [List.mem_singleton.mp hr]
  case h_13 => exact absurd hs (by simp)
  all_goals exact absurd hwr (by simp [hw])

theorem Stopped.renewOrGiveUp (h : Stopped err c₁ c) : Stopped err c₁ c.renewOrGiveUp := by
  unfold Conn.renewOrGiveUp
  split <;> exact h.congr rfl rfl rfl rfl

theorem Stopped.loopStep (h : Stopped err c₁ c) {e : LoopEvent} (hs : c.loopStep e = some t) :
    Stopped err c₁ t := by
  unfold Conn.loopStep at hs
  split at hs
  case h_8 =>
    obtain ⟨_, _, rfl⟩ := Option.map_eq_some_iff.mp hs
    exact h.congr rfl rfl rfl rfl
  all_goals repeat' split at hs
  all_goals cases hs
  all_goals first
    | exact h.congr rfl rfl rfl rfl
    | exact Stopped.renewOrGiveUp (h.congr rfl rfl rfl rfl)

theorem Stopped.senderStep (h : Stopped err c₁ c) {i : ℕ} {e : SenderEvent}
    (hs : c.senderStep i e = some t) : Stopped err c₁ t := by
  obtain ⟨s, _, hs⟩ := Option.bind_eq_some_iff.mp hs
  split at hs <;> cases hs
  · exact h.congr rfl rfl rfl rfl
  · exact h.congr rfl rfl rfl rfl
  · refine h.congr ?_ rfl rfl rfl
    show (c.pipeErr <|> some _) = c.pipeErr
    rw [h.pipeErr]
    rfl
  · exact h.congr rfl rfl rfl rfl

theorem Stopped.closeStep (h : Stopped err c₁ c) {e : CloseEvent} (hs : c.closeStep e = some t) :
    Stopped err c₁ t := by
  unfold Conn.closeStep at hs
  split at hs <;> cases hs
  · exact h.congr rfl rfl rfl rfl
  · exact h.congr rfl rfl (by simp [Conn.writes]) rfl

theorem Stopped.step (h : Stopped err c₁ c) {e : Event} (hs : c.step e = some t) :
    Stopped err c₁ t := by
  cases e with
  | read e => exact h.readStep hs
  | write e => exact h.writeStep hs
  | sender i e => exact h.senderStep hs
  | loop e => exact h.loopStep hs
  | close e => exact h.closeStep hs
  | pool e =>
    obtain ⟨p, _, rfl⟩ := Option.map_eq_some_iff.mp hs
    exact h.congr rfl rfl rfl rfl

/-! ## What the pipeline guarantees -/

theorem Numbered.sends_eq {seq : ℕ} {sends : List Request} (h : Numbered k seq sends) :
    ∃ rest, sends = List.replicate k ⟨.probe, 0, []⟩ ++ rest ∧
      rest.map Request.seq = List.range' 1 rest.length := by
  refine ⟨sends.drop k, ?_, ?_⟩
  · rw [← h.probes, List.take_append_drop]
  · have hlen := congrArg List.length h.seqs
    rw [List.length_map, List.length_range'] at hlen
    rw [h.seqs, hlen]

/-- The frame of a request that is not the first one: it has its number and no target. -/
theorem parse_sendPlain {connID : String} (hconn : IsConnID connID) (target : Bytes) {r : Request}
    (hpos : 0 < r.seq) (hlt : r.seq < 2 ^ 32) :
    ∃ f, parseUploadFrame (sendPlain connID target r) = .ok f ∧
      f.seq.toNat = r.seq ∧ f.target = [] ∧ f.payload = r.payload := by
  rw [sendPlain, if_neg hpos.ne', parseUploadFrame_buildUploadPlain hconn _ (by simp)]
  exact ⟨_, rfl, by rw [UInt32.toNat_ofNat', Nat.mod_eq_of_lt hlt], rfl, rfl⟩

/-- **Writing through the pipeline**, on a connection made by `Dial`.  In every interleaving: there
are at most `tunnelPipelineWidth` senders, each with a request of `Write`; after the first
request the numbers are one, two, three and so on; what `Write` sends are the payloads of the calls
that succeeded; only the first request has the target; and when an error is stored, every `Write`
from then on returns it and sends nothing. -/
theorem pipelined_writes {target : String} {chanDepth : ℕ} {pool : BufPool}
    {answer : ℕ → Except DialError Bytes} {c₀ c : Conn} {es : List Event}
    (hdial : dial target true chanDepth pool answer = .ok c₀) (hrun : exec step c₀ es = some c)
    (hlt : c.sends.length < 2 ^ 32) :
    (c.senders.length ≤ tunnelPipelineWidth ∧
      ∀ s ∈ c.senders, ⟨.write, s.seq, s.data⟩ ∈ c.writes) ∧
    (∃ k rest, 1 ≤ k ∧ c.sends = List.replicate k ⟨.probe, 0, []⟩ ++ rest ∧
      rest.map Request.seq = List.range' 1 rest.length ∧
      ∀ r ∈ rest, ∀ connID tgt, IsConnID connID →
        ∃ f, parseUploadFrame (sendPlain connID tgt r) = .ok f ∧
          f.seq.toNat = r.seq ∧ f.target = [] ∧ f.payload = r.payload) ∧
    c.writes.map Request.payload = c.accepted ∧
    ∀ err, c.pipeErr = some err → c.writer = .idle → ∀ fs d, exec step c fs = some d →
      d.pipeErr = some err ∧ d.writes = c.writes ∧
        ∃ rs, d.results = c.results ++ rs ∧ ∀ r ∈ rs, r.2 = .err err := by
  obtain ⟨k, resp, hk, _, rfl⟩ := dial_eq_ok hdial
  have hwidth : c.pipeWidth = tunnelPipelineWidth :=
    inv_of_exec (P := fun c ↦ c.pipeWidth = tunnelPipelineWidth)
      (fun h hs ↦ (pipeWidth_step hs).trans h) rfl hrun
  have hinv : PipeInv k c :=
    inv_of_exec (fun h hs ↦ PipeInv.step h hs)
      (pipeInv_established (by decide) chanDepth pool k resp) hrun
  refine ⟨⟨?_, fun s hs ↦ ?_⟩, ?_, hinv.payloads, fun err he hw fs d hd ↦ ?_⟩
  · have hslots := hinv.slots
    have hbounded := hinv.bounded
    omega
  · exact List.mem_filter.mpr ⟨hinv.senders s hs, by simp⟩
  · obtain ⟨rest, hsends, hseqs⟩ := hinv.requests.sends_eq
    refine ⟨k, rest, hk, hsends, hseqs, fun r hr connID tgt hconn ↦ ?_⟩
    have hmem : r.seq ∈ List.range' 1 rest.length := hseqs ▸ List.mem_map_of_mem hr
    rw [List.mem_range'_1] at hmem
    have hlen : rest.length ≤ c.sends.length := by simp [hsends]
    exact parse_sendPlain hconn tgt (by omega) (by omega)
  · have hstop : Stopped err c d :=
      inv_of_exec (fun h hs ↦ Stopped.step h hs)
        ⟨he, Or.inl hw, rfl, [], by simp, by simp⟩ hd
    exact ⟨hstop.pipeErr, hstop.writes, hstop.results⟩

/-- A `Write` that starts a sender. -/
def launchFor (p : Bytes) : List Event :=
  [.write (.call p), .write .checkErr, .write .checkClosed, .write .acquire, .write .checkErr,
    .write .launch]

/-- Two requests are under way; the first one fails, and so does the next `Write`. -/
def pipeDemo : List Event :=
  launchFor [1] ++ launchFor [2, 3] ++
    [.sender 0 (.answer (.err "refused")), .sender 0 .store, .sender 0 .release,
      .write (.call [4]), .write .checkErr]

theorem pipelined_writes_demo :
    ∃ c₀ c, dial "example.org:443" true 64 .empty (fun _ ↦ .ok []) = .ok c₀ ∧
      exec step c₀ pipeDemo = some c ∧ c.sends.length < 2 ^ 32 ∧ c.pipeErr = some "refused" ∧
        c.accepted = [[1], [2, 3]] ∧ c.writes.map Request.payload = c.accepted := by
  have hrun : (exec step (established true tunnelPipelineWidth 64 .empty 1 []) pipeDemo).map
      (fun c ↦ (c.sends.length, c.pipeErr, c.accepted)) =
        some (3, some "refused", [[1], [2, 3]]) := by
    decide +kernel
  obtain ⟨c, hc, hd⟩ := Option.map_eq_some_iff.mp hrun
  simp only [Prod.mk.injEq] at hd
  obtain ⟨hlen, herr, hacc⟩ := hd
  have hlt : c.sends.length < 2 ^ 32 := by omega
  have hdial : dial "example.org:443" true 64 .empty (fun _ ↦ .ok []) =
      .ok (established true tunnelPipelineWidth 64 .empty 1 []) := rfl
  exact ⟨_, c, hdial, hc, hlt, herr, hacc, (pipelined_writes hdial hc hlt).2.2.1⟩

end Conn

end TunnelCat.Session
