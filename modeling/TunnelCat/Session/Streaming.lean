import TunnelCat.Session.Conn

/-!
# Reading from streams

With a stream, what a caller reads was read from stream bodies by the stream loop, one body after
the other, and came through a channel in pooled buffers.  In front of it comes the answer to the
first request.

At any time those bytes are in a row of places: delivered; in a chunk the reader has taken out of
the channel; in the read buffer; in the chunks in the channel; in the hands of the loop.
`StreamInv` says that, in this order, they are exactly what there was to read.  The chunks are in
buffers that everybody else in the process may use before and after, so the invariant has to say too
that nobody else has them now, and here the rules of `BufPool.Owns` do the work.

Nothing is lost unless the connection is closed: then the loop drops the chunk it could not send,
and reads no more.

The streaming mode depends on one thing about `Write`: it must not put anything into the read
buffer.  In the pipeline, which is what `Dial` sets up, it has no code for that.  Without the
pipeline it appends the answer to its request, and answers are documented to be empty.
-/

set_option autoImplicit false

namespace TunnelCat.Session

open Trace

/-! ## Who holds what -/

/-- The bytes of a chunk. -/
def Chunk.bytes (p : BufPool) (ch : Chunk) : Bytes := p.read ch.buf ch.len

/-- The bytes the reader has taken out of the channel and not passed on. -/
def Reader.rest (p : BufPool) : Reader → Bytes
  | .received _ ch => ch.bytes p
  | .copied ch k => (ch.bytes p).drop k
  | _ => []

/-- The buffer the reader has. -/
def Reader.bufs : Reader → List ℕ
  | .received _ ch | .copied ch _ | .putting ch => [ch.buf]
  | _ => []

/-- The bytes the loop has read and not passed on. -/
def Loop.rest (p : BufPool) : Loop → Bytes
  | .holding bs _ => bs
  | .offering ch _ => ch.bytes p
  | _ => []

@[simp] theorem Loop.rest_holding (p : BufPool) (bs : Bytes) (last : Bool) :
    Loop.rest p (.holding bs last) = bs := rfl

@[simp] theorem Loop.rest_offering (p : BufPool) (ch : Chunk) (last : Bool) :
    Loop.rest p (.offering ch last) = ch.bytes p := rfl

/-- The buffer the loop has. -/
def Loop.bufs : Loop → List ℕ
  | .offering ch _ => [ch.buf]
  | _ => []

/-- The loop holds nothing and has not ended. -/
def Loop.Between : Loop → Prop
  | .top | .opening | .waiting | .reading | .ended => True
  | _ => False

/-- The loop has ended. -/
def Loop.Over : Loop → Prop
  | .exiting | .done => True
  | _ => False

/-- The reader is not polling, and it looks for a chunk only when the read buffer is empty. -/
def Reader.Streaming (readBuf : Bytes) : Reader → Prop
  | .idle | .entered _ | .putting _ => True
  | .selecting _ | .received _ _ | .copied _ _ => readBuf = []
  | _ => False

/-- The reader has nothing. -/
def Reader.Empty : Reader → Prop
  | .idle | .entered _ | .selecting _ => True
  | _ => False

variable {l : Loop}

theorem Loop.Between.ne_done (h : l.Between) : l ≠ .done := by
  rintro rfl
  exact h

theorem Loop.Between.not_over (h : l.Between) : ¬ l.Over := by
  cases l <;> simp_all [Loop.Between, Loop.Over]

theorem Loop.Between.rest_eq (h : l.Between) (p : BufPool) : l.rest p = [] := by
  cases l <;> simp_all [Loop.Between, Loop.rest]

theorem Loop.Between.bufs_eq (h : l.Between) : l.bufs = [] := by
  cases l <;> simp_all [Loop.Between, Loop.bufs]

namespace Conn

/-- The buffers the connection has. -/
def held (c : Conn) : List ℕ := c.reader.bufs ++ (c.chan.map Chunk.buf ++ c.loop.bufs)

/-- The bytes in the channel. -/
def chanBytes (c : Conn) : Bytes := (c.chan.map (Chunk.bytes c.pool)).flatten

/-- The bytes that have been read from a stream and not been delivered. -/
def pending (c : Conn) : Bytes :=
  c.reader.rest c.pool ++ (c.readBuf ++ (c.chanBytes ++ c.loop.rest c.pool))

/-- Everything there was is delivered. -/
structure Drained (c : Conn) : Prop where
  loop : c.loop = .done
  chan : c.chan = []
  readBuf : c.readBuf = []
  reader : c.reader.Empty

/-- What stays as it is while a connection streams. -/
structure Streams (c : Conn) : Prop where
  /-- There is a stream. -/
  streaming : c.streaming = true
  /-- The writer has nothing for the read buffer. -/
  writer : c.writer.holds = []
  /-- A pipeline stays one. -/
  pipeline : 0 < c.pipeWidth → c.writer.Pipelined
  /-- There is nothing in a channel without a buffer. -/
  unbuffered : c.chanDepth = 0 → c.chan = []
  /-- Only the end of the loop closes the channel. -/
  chanClosed : c.chanClosed = true → c.loop = .done

/-- **The invariant** of a connection that started with `initial` in its read buffer. -/
structure StreamInv (initial : Bytes) (c : Conn) : Prop where
  /-- It streams. -/
  streams : c.Streams
  /-- Nobody else has our buffers. -/
  owns : c.pool.Owns c.held
  /-- Where the reader can be. -/
  reader : c.reader.Streaming c.readBuf
  /-- All bytes are there, in order, up to a chunk that was dropped after `Close`. -/
  flow : ∃ dropped, c.delivered ++ (c.pending ++ dropped) = initial ++ c.streamed ∧
    (dropped = [] ∨ c.closed = true ∧ c.loop.Over)
  /-- The end is only reported at the end. -/
  errClosed : c.errClosed = true → c.closed = true ∨ c.Drained

variable {initial : Bytes} {c t : Conn}

theorem StreamInv.isPrefix (h : StreamInv initial c) : c.delivered <+: initial ++ c.streamed := by
  obtain ⟨dropped, hflow, _⟩ := h.flow
  exact ⟨_, hflow⟩

theorem Drained.pending_eq (h : c.Drained) : c.pending = [] := by
  have hr := h.reader
  rw [pending, chanBytes, h.chan, h.readBuf, h.loop]
  cases hc : c.reader <;> simp_all [Reader.Empty, Reader.rest, Loop.rest]

/-- Without `Close`, a drained connection has delivered everything. -/
theorem StreamInv.delivered_eq (h : StreamInv initial c) (hopen : c.closed = false)
    (herr : c.errClosed = true) : c.delivered = initial ++ c.streamed := by
  obtain ⟨dropped, hflow, hdrop⟩ := h.flow
  have hdrained : c.Drained := (h.errClosed herr).resolve_left (by simp [hopen])
  have hnone : dropped = [] := hdrop.resolve_right (by simp [hopen])
  rw [hdrained.pending_eq, hnone] at hflow
  simpa using hflow

/-- The bytes that are pending do not change if the buffers we hold do not. -/
theorem pending_congr {q : BufPool} (h : ∀ id ∈ c.held, q.heap id = c.pool.heap id) :
    pending { c with pool := q } = c.pending := by
  have hread : ∀ ch : Chunk, ch.buf ∈ c.held → ch.bytes q = ch.bytes c.pool := by
    intro ch hch
    rw [Chunk.bytes, Chunk.bytes, BufPool.read, BufPool.read, h _ hch]
  have hr : c.reader.rest q = c.reader.rest c.pool := by
    cases hc : c.reader <;>
      simp only [Reader.rest] <;> rw [hread _ (by simp [held, hc, Reader.bufs])]
  have hl : c.loop.rest q = c.loop.rest c.pool := by
    cases hc : c.loop <;> simp only [Loop.rest]
    rw [hread _ (by simp [held, hc, Loop.bufs])]
  have hc : c.chan.map (Chunk.bytes q) = c.chan.map (Chunk.bytes c.pool) := by
    refine List.map_congr_left fun ch hch ↦ hread ch ?_
    simp only [held, List.mem_append]
    exact Or.inr (Or.inl (List.mem_map_of_mem hch))
  simp only [pending, chanBytes, hr, hl, hc]

theorem take_append_drop_append (n : ℕ) (l r : Bytes) : l.take n ++ (l.drop n ++ r) = l ++ r := by
  rw [← List.append_assoc, List.take_append_drop]

/-! ## Each step keeps it -/

theorem StreamInv.readStep (h : StreamInv initial c) {e : ReadEvent}
    (hs : c.readStep e = some t) : StreamInv initial t := by
  obtain ⟨hstr, howns, hrd, ⟨dropped, hflow, hdrop⟩, herr⟩ := h
  -- A reader that holds a chunk has not been told of the end.
  have hbusy : ∀ {t : Conn}, ¬ c.reader.Empty → c.errClosed = true → c.closed = true ∨ t.Drained :=
    fun hne he ↦ (herr he).imp_right fun hd ↦ absurd hd.reader hne
  unfold Conn.readStep at hs
  split at hs <;> rename_i hr
  all_goals simp only [pending, held] at hflow howns
  all_goals first | rw [hr] at hflow howns hrd | skip
  case h_1 n =>
    cases hs
    exact ⟨{ hstr with }, howns, trivial, ⟨dropped, hflow, hdrop⟩,
      fun he ↦ (herr he).imp_right fun hd ↦ ⟨hd.loop, hd.chan, hd.readBuf, trivial⟩⟩
  case h_2 n =>
    split at hs
    · rename_i hbuf
      cases hs
      rw [if_pos hstr.streaming]
      exact ⟨{ hstr with }, howns, hbuf, ⟨dropped, hflow, hdrop⟩,
        fun he ↦ (herr he).imp_right fun hd ↦ ⟨hd.loop, hd.chan, hd.readBuf, trivial⟩⟩
    · rename_i hbuf
      cases hs
      refine ⟨{ hstr with }, howns, trivial, ⟨dropped, ?_, hdrop⟩,
        fun he ↦ (herr he).imp_right fun hd ↦ absurd hd.readBuf hbuf⟩
      rw [← hflow]
      simp [pending, Reader.rest, chanBytes, take_append_drop_append]
  case h_3 n =>
    split at hs
    · exact absurd hs (by simp)
    · rename_i ch chs hchan
      cases hs
      refine ⟨?_, ?_, hrd, ⟨dropped, ?_, hdrop⟩, ?_⟩
      · exact { hstr with unbuffered := fun hz ↦ absurd (hstr.unbuffered hz) (by simp [hchan]) }
      · rw [hchan] at howns
        exact howns
      · rw [← hflow]
        have hbuf : c.readBuf = [] := hrd
        simp [pending, Reader.rest, chanBytes, hchan, hbuf]
      · exact fun he ↦ (herr he).imp_right fun hd ↦ absurd hd.chan (by simp [hchan])
  case h_4 n =>
    split at hs <;> cases hs
    rename_i hclosed
    exact ⟨{ hstr with }, howns, trivial, ⟨dropped, hflow, hdrop⟩,
      fun _ ↦ Or.inl hclosed⟩
  case h_5 n =>
    split at hs <;> cases hs
    rename_i hend
    exact ⟨{ hstr with }, howns, trivial, ⟨dropped, hflow, hdrop⟩,
      fun _ ↦ Or.inr ⟨hstr.chanClosed hend.2, hend.1, hrd, trivial⟩⟩
  case h_6 n ch =>
    cases hs
    split
    · refine ⟨{ hstr with }, howns, hrd, ⟨dropped, ?_, hdrop⟩,
        hbusy (by simp [hr, Reader.Empty])⟩
      rw [← hflow]
      simp [pending, Reader.rest, chanBytes, Chunk.bytes, take_append_drop_append]
    · rename_i hn
      refine ⟨{ hstr with }, howns, trivial, ⟨dropped, ?_, hdrop⟩,
        hbusy (by simp [hr, Reader.Empty])⟩
      have hlen : (c.pool.read ch.buf ch.len).take n = c.pool.read ch.buf ch.len :=
        List.take_of_length_le ((List.length_take_le _ _).trans (not_lt.mp hn))
      rw [← hflow]
      simp [pending, Reader.rest, chanBytes, Chunk.bytes, hlen]
  case h_7 ch k =>
    cases hs
    have hbuf : c.readBuf = [] := hrd
    refine ⟨{ hstr with }, howns, trivial, ⟨dropped, ?_, hdrop⟩,
      hbusy (by simp [hr, Reader.Empty])⟩
    rw [← hflow]
    simp [pending, Reader.rest, chanBytes, Chunk.bytes, hbuf]
  case h_8 ch =>
    cases hs
    exact ⟨{ hstr with }, howns.put, trivial, ⟨dropped, hflow, hdrop⟩,
      hbusy (by simp [hr, Reader.Empty])⟩
  case h_9 | h_10 | h_11 | h_12 | h_13 | h_14 | h_15 => exact hrd.elim
  case h_16 => exact absurd hs (by simp)

/-- A loop that holds nothing and has not ended has not dropped anything either. -/
theorem StreamInv.flow_between (h : StreamInv initial c) (hl : ¬ c.loop.Over) :
    c.delivered ++ c.pending = initial ++ c.streamed := by
  obtain ⟨dropped, hflow, hdrop⟩ := h.flow
  rw [hdrop.resolve_right fun hd ↦ hl hd.2, List.append_nil] at hflow
  exact hflow

/-- As long as the loop goes on, the end is only reported after `Close`. -/
theorem StreamInv.closed_of_errClosed (h : StreamInv initial c) (hl : c.loop ≠ .done)
    (herr : c.errClosed = true) : c.closed = true :=
  (h.errClosed herr).resolve_right fun hd ↦ hl hd.loop

/-- Before the loop has ended nothing says that it has. -/
theorem StreamInv.streams_of_ne_done (h : StreamInv initial c) (hl : c.loop ≠ .done) (l : Loop) :
    Streams { c with loop := l } :=
  { h.streams with chanClosed := fun hcc ↦ absurd (h.streams.chanClosed hcc) hl }

/-- The loop moves on without anything in its hands. -/
theorem StreamInv.moveLoop (h : StreamInv initial c) (hl : c.loop.Between) (l : Loop)
    (hl' : l.Between ∨ l = .exiting) (openErrors flaps renewals streamDead : ℕ) :
    StreamInv initial { c with
      loop := l
      openErrors := openErrors
      flaps := flaps
      renewals := renewals
      streamDead := streamDead } := by
  have hbufs : l.bufs = c.loop.bufs := by
    rcases hl' with hl' | rfl
    · rw [hl'.bufs_eq, hl.bufs_eq]
    · exact hl.bufs_eq.symm
  have hrest : l.rest c.pool = c.loop.rest c.pool := by
    rcases hl' with hl' | rfl
    · rw [hl'.rest_eq, hl.rest_eq]
    · exact (hl.rest_eq _).symm
  refine ⟨?_, ?_, h.reader, ⟨[], ?_, Or.inl rfl⟩, fun he ↦ Or.inl ?_⟩
  · exact { h.streams_of_ne_done hl.ne_done l with }
  · have howns := h.owns
    rw [held, ← hbufs] at howns
    exact howns
  · have hflow := h.flow_between hl.not_over
    rw [pending, ← hrest] at hflow
    rw [List.append_nil]
    exact hflow
  · exact h.closed_of_errClosed hl.ne_done he

theorem StreamInv.renewOrGiveUp (h : StreamInv initial c) (hl : c.loop.Between)
    (openErrors flaps : ℕ) :
    StreamInv initial
      (Conn.renewOrGiveUp { c with openErrors := openErrors, flaps := flaps }) := by
  unfold Conn.renewOrGiveUp
  split
  · exact h.moveLoop hl .top (Or.inl trivial) ..
  · exact h.moveLoop hl .exiting (Or.inr rfl) ..

theorem afterRead_between (last : Bool) : (afterRead last).Between := by
  cases last <;> trivial

/-- `body.Read` returns some bytes. -/
theorem StreamInv.loopRead (h : StreamInv initial c) (hl : c.loop = .reading) (bs : Bytes)
    (last : Bool) :
    StreamInv initial { c with loop := .holding bs last, streamed := c.streamed ++ bs } := by
  have hne : c.loop ≠ .done := by simp [hl]
  have hflow := h.flow_between (by simp [hl, Loop.Over])
  have howns := h.owns
  rw [held, hl] at howns
  rw [pending, hl] at hflow
  refine ⟨{ h.streams_of_ne_done hne _ with }, howns, h.reader, ⟨[], ?_, Or.inl rfl⟩,
    fun he ↦ Or.inl (h.closed_of_errClosed hne he)⟩
  rw [← List.append_assoc initial, ← hflow]
  simp [pending, chanBytes, Loop.rest]

variable {last : Bool} {ch : Chunk}

/-- The loop takes a buffer and fills it.  The buffer is none of ours, so that what is in ours
stays. -/
theorem StreamInv.loopGet (h : StreamInv initial c) {bs : Bytes} (hl : c.loop = .holding bs last)
    {i : Option ℕ} {b : ℕ} {p : BufPool} (hget : c.pool.get i = some (b, p)) :
    StreamInv initial
      { c with pool := p.write b bs, loop := .offering ⟨b, bs.length⟩ last } := by
  have hne : c.loop ≠ .done := by simp [hl]
  have hflow := h.flow_between (by simp [hl, Loop.Over])
  obtain ⟨howns, hheap⟩ := h.owns.get hget
  have hheld : ∀ id ∈ c.held, (p.write b bs).heap id = c.pool.heap id := by
    intro id hid
    have hb : id ≠ b := by
      rintro rfl
      have hnodup := (List.nodup_append.mp howns.nodup).1
      exact (List.nodup_cons.mp hnodup).1 hid
    rw [BufPool.write, hheap]
    exact Function.update_of_ne hb ..
  rw [← pending_congr hheld, pending, hl] at hflow
  refine ⟨{ h.streams_of_ne_done hne _ with }, ?_, h.reader, ⟨[], ?_, Or.inl rfl⟩,
    fun he ↦ Or.inl (h.closed_of_errClosed hne he)⟩
  · refine (howns.write b bs).perm ?_
    rw [held, held, hl]
    simp [Loop.bufs, ← List.append_assoc]
  · rw [← hflow]
    simp [pending, chanBytes, Chunk.bytes]

/-- The loop puts its chunk into the channel. -/
theorem StreamInv.loopSend (h : StreamInv initial c) (hl : c.loop = .offering ch last)
    (hdepth : c.chanDepth ≠ 0) :
    StreamInv initial { c with chan := c.chan ++ [ch], loop := afterRead last } := by
  have hne : c.loop ≠ .done := by simp [hl]
  have hafter := afterRead_between last
  have hflow := h.flow_between (by simp [hl, Loop.Over])
  have howns := h.owns
  rw [held, hl] at howns
  rw [pending, hl] at hflow
  refine ⟨?_, ?_, h.reader, ⟨[], ?_, Or.inl rfl⟩,
    fun he ↦ Or.inl (h.closed_of_errClosed hne he)⟩
  · exact { h.streams_of_ne_done hne _ with unbuffered := fun hz ↦ absurd hz hdepth }
  · rw [held, hafter.bufs_eq]
    simpa [Loop.bufs] using howns
  · rw [← hflow]
    simp [pending, chanBytes, hafter.rest_eq]

/-- The loop hands its chunk to a reader that waits. -/
theorem StreamInv.loopHand (h : StreamInv initial c) {n : ℕ} (hl : c.loop = .offering ch last)
    (hdepth : c.chanDepth = 0) (hr : c.reader = .selecting n) :
    StreamInv initial { c with reader := .received n ch, loop := afterRead last } := by
  have hne : c.loop ≠ .done := by simp [hl]
  have hafter := afterRead_between last
  have hflow := h.flow_between (by simp [hl, Loop.Over])
  have howns := h.owns
  have hchan := h.streams.unbuffered hdepth
  have hbuf : c.readBuf = [] := by simpa only [hr, Reader.Streaming] using h.reader
  rw [held, hl, hr, hchan] at howns
  rw [pending, hl, hr] at hflow
  refine ⟨{ h.streams_of_ne_done hne _ with }, ?_, hbuf, ⟨[], ?_, Or.inl rfl⟩,
    fun he ↦ Or.inl (h.closed_of_errClosed hne he)⟩
  · rw [held, hchan, hafter.bufs_eq]
    exact howns
  · rw [← hflow]
    simp [pending, chanBytes, hchan, hbuf, hafter.rest_eq, Reader.rest]

/-- The loop notices `Close` and gives its buffer back, and the bytes in it are gone. -/
theorem StreamInv.loopDrop (h : StreamInv initial c) (hl : c.loop = .offering ch last)
    (hclosed : c.closed = true) :
    StreamInv initial { c with pool := c.pool.put ch.buf, loop := .exiting } := by
  have hne : c.loop ≠ .done := by simp [hl]
  have hflow := h.flow_between (by simp [hl, Loop.Over])
  have howns := h.owns
  rw [held, hl] at howns
  rw [pending, hl] at hflow
  refine ⟨{ h.streams_of_ne_done hne _ with }, ?_, h.reader,
    ⟨ch.bytes c.pool, ?_, Or.inr ⟨hclosed, trivial⟩⟩, fun _ ↦ Or.inl hclosed⟩
  · refine (howns.perm ?_).put
    rw [held, ← List.append_assoc, ← List.append_assoc]
    exact (List.perm_append_singleton ..).symm.trans (by simp [Loop.bufs])
  · have hput : pending { c with pool := c.pool.put ch.buf, loop := .exiting } =
        pending { c with loop := .exiting } :=
      pending_congr (c := { c with loop := .exiting }) fun _ _ ↦ rfl
    rw [hput, ← hflow]
    simp [pending, chanBytes, Loop.rest]

/-- The loop ends and closes the channel. -/
theorem StreamInv.loopExit (h : StreamInv initial c) (hl : c.loop = .exiting) :
    StreamInv initial { c with loop := .done, chanClosed := true } := by
  have hne : c.loop ≠ .done := by simp [hl]
  obtain ⟨dropped, hflow, hdrop⟩ := h.flow
  have howns := h.owns
  rw [held, hl] at howns
  rw [pending, hl] at hflow
  exact ⟨{ h.streams with chanClosed := fun _ ↦ rfl }, howns, h.reader,
    ⟨dropped, hflow, hdrop.imp_right fun hd ↦ ⟨hd.1, trivial⟩⟩,
    fun he ↦ Or.inl (h.closed_of_errClosed hne he)⟩

theorem StreamInv.loopStep (h : StreamInv initial c) {e : LoopEvent}
    (hs : c.loopStep e = some t) : StreamInv initial t := by
  unfold Conn.loopStep at hs
  split at hs <;> rename_i hl
  case h_7 bs last =>
    split at hs <;> cases hs
    by_cases hbs : bs = []
    · rw [if_pos hbs, hbs, List.append_nil]
      exact h.moveLoop (by rw [hl]; trivial) _ (Or.inl (afterRead_between last)) ..
    · rw [if_neg hbs]
      exact h.loopRead hl bs last
  case h_8 bs last i =>
    obtain ⟨⟨b, p⟩, hget, rfl⟩ := Option.map_eq_some_iff.mp hs
    exact h.loopGet hl hget
  case h_9 ch last =>
    split at hs
    · rename_i hdepth
      split at hs <;> cases hs
      rename_i n hr
      exact h.loopHand hl hdepth hr
    · rename_i hdepth
      split at hs <;> cases hs
      exact h.loopSend hl hdepth
  case h_10 ch last =>
    split at hs <;> cases hs
    rename_i hclosed
    exact h.loopDrop hl hclosed
  case h_12 =>
    cases hs
    exact h.loopExit hl
  case h_13 => exact absurd hs (by simp)
  -- Everywhere else the loop holds nothing, before or after.
  all_goals have hbetween : c.loop.Between := by rw [hl]; trivial
  case h_1 =>
    cases hs
    refine h.moveLoop hbetween _ ?_ ..
    split
    · exact Or.inr rfl
    · exact Or.inl trivial
  case h_2 =>
    cases hs
    exact h.moveLoop hbetween .reading (Or.inl trivial) ..
  case h_3 =>
    cases hs
    exact h.moveLoop hbetween .exiting (Or.inr rfl) ..
  case h_4 =>
    split at hs <;> cases hs
    · exact h.renewOrGiveUp hbetween ..
    · exact h.moveLoop hbetween .waiting (Or.inl trivial) ..
  case h_5 =>
    cases hs
    exact h.moveLoop hbetween .top (Or.inl trivial) ..
  case h_6 =>
    split at hs <;> cases hs
    exact h.moveLoop hbetween .exiting (Or.inr rfl) ..
  case h_11 short =>
    split at hs
    · split at hs <;> cases hs
      · exact h.renewOrGiveUp hbetween ..
      · exact h.moveLoop hbetween .waiting (Or.inl trivial) ..
    · cases hs
      exact h.moveLoop hbetween .top (Or.inl trivial) ..

/-- What `Write` has for the read buffer is empty. -/
def Event.NoInline : Event → Prop
  | .write (.answer (.ok resp)) => resp = []
  | _ => True

/-- What the senders, `Close` and a `Write` with nothing for the read buffer change does not
matter. -/
theorem StreamInv.frame (h : StreamInv initial c) (w : Writer) (hw : w.holds = [])
    (hp : 0 < c.pipeWidth → w.Pipelined) (seq slots : ℕ) (pipeErr : Option String)
    (senders : List Sender) (closer : Closer) (responses : List Bytes) (sends : List Request)
    (results : List (Bytes × Outcome ℕ)) :
    StreamInv initial { c with
      writer := w
      seq := seq
      slots := slots
      pipeErr := pipeErr
      senders := senders
      closer := closer
      responses := responses
      sends := sends
      results := results } :=
  ⟨{ h.streams with writer := hw, pipeline := hp }, h.owns, h.reader, h.flow,
    fun he ↦ (h.errClosed he).imp_right fun hd ↦ ⟨hd.loop, hd.chan, hd.readBuf, hd.reader⟩⟩

theorem StreamInv.writeStep (h : StreamInv initial c) {e : WriteEvent}
    (he : 0 < c.pipeWidth ∨ Event.NoInline (.write e)) (hs : c.writeStep e = some t) :
    StreamInv initial t := by
  have hholds := h.streams.writer
  have hpipe := h.streams.pipeline
  unfold Conn.writeStep at hs
  split at hs <;> rename_i hw
  all_goals first | rw [hw] at hholds hpipe | skip
  case h_3 =>
    split at hs <;> cases hs
    · exact h.frame .idle rfl (fun _ ↦ trivial) ..
    · split
      · exact h.frame (.acquiring _) rfl (fun _ ↦ trivial) ..
      · rename_i hzero
        exact h.frame (.numbering _) rfl (fun hp ↦ absurd hp hzero) ..
  case h_9 =>
    cases hs
    exact h.frame (.awaiting _) rfl hpipe ..
  case h_10 p resp =>
    split at hs <;> cases hs
    · exact h.frame .idle rfl (fun _ ↦ trivial) ..
    · rename_i hne
      exact (he.elim hpipe fun hnil ↦ hne hnil).elim
  case h_12 => exact absurd hholds (by simp [Writer.holds])
  all_goals repeat' split at hs
  all_goals cases hs
  all_goals refine h.frame _ ?_ (fun _ ↦ ?_) .. <;> trivial

theorem StreamInv.senderStep (h : StreamInv initial c) {i : ℕ} {e : SenderEvent}
    (hs : c.senderStep i e = some t) : StreamInv initial t := by
  obtain ⟨s, _, hs⟩ := Option.bind_eq_some_iff.mp hs
  split at hs <;> cases hs <;> exact h.frame _ h.streams.writer h.streams.pipeline ..

theorem StreamInv.closeStep (h : StreamInv initial c) {e : CloseEvent}
    (hs : c.closeStep e = some t) : StreamInv initial t := by
  unfold Conn.closeStep at hs
  split at hs <;> cases hs
  · obtain ⟨dropped, hflow, hdrop⟩ := h.flow
    exact ⟨{ h.streams with }, h.owns, h.reader,
      ⟨dropped, hflow, hdrop.imp_right fun hd ↦ ⟨rfl, hd.2⟩⟩, fun _ ↦ Or.inl rfl⟩
  · exact h.frame _ h.streams.writer h.streams.pipeline ..

theorem StreamInv.poolStep (h : StreamInv initial c) {e : BufPool.Other} {p : BufPool}
    (hs : c.pool.other e = some p) : StreamInv initial { c with pool := p } := by
  obtain ⟨howns, hheap⟩ := h.owns.other hs
  obtain ⟨dropped, hflow, hdrop⟩ := h.flow
  rw [← pending_congr hheap] at hflow
  exact ⟨{ h.streams with }, howns, h.reader, ⟨dropped, hflow, hdrop⟩,
    fun he ↦ (h.errClosed he).imp_right fun hd ↦ ⟨hd.loop, hd.chan, hd.readBuf, hd.reader⟩⟩

theorem StreamInv.step (h : StreamInv initial c) {e : Event}
    (he : 0 < c.pipeWidth ∨ e.NoInline) (hs : c.step e = some t) : StreamInv initial t := by
  cases e with
  | read e => exact h.readStep hs
  | write e => exact h.writeStep he hs
  | sender i e => exact h.senderStep hs
  | loop e => exact h.loopStep hs
  | close e => exact h.closeStep hs
  | pool e =>
    obtain ⟨p, hp, rfl⟩ := Option.map_eq_some_iff.mp hs
    exact h.poolStep hp

theorem streamInv_established (pipeWidth chanDepth : ℕ) {pool : BufPool} (hpool : pool.Owns [])
    (k : ℕ) (resp : Bytes) :
    StreamInv resp (established true pipeWidth chanDepth pool k resp) := by
  refine ⟨⟨rfl, rfl, fun _ ↦ trivial, fun _ ↦ rfl, fun hcc ↦ ?_⟩, hpool, trivial,
    ⟨[], ?_, Or.inl rfl⟩, fun he ↦ ?_⟩
  · exact absurd hcc (by simp [established, newTunnelConn])
  · simp [established, newTunnelConn, pending, chanBytes, Reader.rest, Loop.rest]
  · exact absurd he (by simp [established, newTunnelConn])

/-! ## What is delivered is what was streamed -/

/-- **Streams are delivered**: in every interleaving, what `Read` has delivered is a beginning of
the answer to the first request followed by what was read from the streams, and if `Close` is not
called, `Read` reports the end only when that is all of it. -/
theorem stream_delivered {pipeWidth chanDepth k : ℕ} {pool : BufPool} {resp : Bytes} {c : Conn}
    {es : List Event} (hpool : pool.Owns [])
    (hwrite : 0 < pipeWidth ∨ ∀ e ∈ es, e.NoInline)
    (hrun : exec step (established true pipeWidth chanDepth pool k resp) es = some c) :
    c.delivered <+: resp ++ c.streamed ∧
      (c.closed = false → c.errClosed = true → c.delivered = resp ++ c.streamed) := by
  have hwidth : ∀ e ∈ es, 0 < pipeWidth ∨ e.NoInline :=
    fun e he ↦ hwrite.imp_right fun hall ↦ hall e he
  have hinv : StreamInv resp c ∧ c.pipeWidth = pipeWidth := by
    refine inv_of_exec_along (P := fun c ↦ StreamInv resp c ∧ c.pipeWidth = pipeWidth)
      (fun h hc hs ↦ ?_) ⟨streamInv_established pipeWidth chanDepth hpool k resp, rfl⟩
      (along_of_forall_mem hwidth _) hrun
    obtain ⟨hinv, hw⟩ := h
    rw [← hw] at hc
    exact ⟨hinv.step hc hs, (pipeWidth_step hs).trans hw⟩
  exact ⟨hinv.1.isPrefix, hinv.1.delivered_eq⟩

/-- A stream delivers three bytes and ends, and the next one is refused.  The caller reads with a
buffer of two bytes. -/
def streamDemo : List Event :=
  [.loop .check, .loop .opened, .loop (.read [1, 2, 3] false), .loop (.get none), .loop .send,
    .read (.call 2), .read .lock,
    .read (.call 2), .read .lock, .read .recv, .read .copy, .read .requeue, .read .put,
    .loop (.read [] true), .loop (.judge false), .loop .check, .loop .notFound, .loop .exit,
    .read (.call 2), .read .lock, .read (.call 2), .read .lock, .read .drained]

theorem stream_delivered_demo :
    ∃ c, exec step (established true 8 64 .empty 1 [9]) streamDemo = some c ∧
      c.errClosed = true ∧ c.closed = false ∧ c.streamed = [1, 2, 3] ∧
        c.delivered = [9] ++ c.streamed := by
  have hrun : (exec step (established true 8 64 .empty 1 [9]) streamDemo).map
      (fun c ↦ (c.errClosed, c.closed, c.streamed)) = some (true, false, [1, 2, 3]) := by
    decide +kernel
  obtain ⟨c, hc, hd⟩ := Option.map_eq_some_iff.mp hrun
  simp only [Prod.mk.injEq] at hd
  obtain ⟨herr, hopen, hstr⟩ := hd
  exact ⟨c, hc, herr, hopen, hstr,
    (stream_delivered BufPool.owns_empty (Or.inl (by decide)) hc).2 hopen herr⟩

end Conn

end TunnelCat.Session
