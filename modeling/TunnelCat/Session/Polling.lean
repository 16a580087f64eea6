import Mathlib.Data.List.Permutation
import TunnelCat.Session.Conn

/-!
# Reading by polling

Without a stream, the bytes a caller reads come from the answers to requests: the answer to the
first request, the answers to the polls that `Read` sends when its buffer is empty, and the answers
to what `Write` sends.  The last two arrive concurrently.

An answer is a piece of the target's output, and the least one can ask is that it stays in one
piece: what has been delivered is a beginning of the answers, put one after the other in *some*
order (`Whole`).  The invariant behind it, `PollInv`, says where the answers are.  Those in `o₁`
have been delivered, those in `o₂` are in the read buffer, and while a poll is under way the border
between the two is a border between answers.

There is one step that breaks this.  `Read` copies what fits of an answer to a poll and then appends
the rest to the read buffer, and if `Write` has put something there in the meantime the rest comes
after it.  It is the only one: when no rest of an answer is appended to a buffer that is not empty,
answers stay whole.
-/

set_option autoImplicit false

namespace TunnelCat.Session

open Trace

/-- The answer that the reader holds in full. -/
def Reader.holds : Reader → List Bytes
  | .requeueing 0 tail => [tail]
  | _ => []

namespace Conn

/-- What has been delivered is a beginning of all answers in some order. -/
def Whole (c : Conn) : Prop :=
  ∃ order : List Bytes, order.Perm c.responses ∧ c.delivered <+: order.flatten

/-- If this is the step that appends the rest of an answer, of which some was delivered, then the
read buffer is empty. -/
def RequeueInOrder (c : Conn) (e : Event) : Prop :=
  match e, c.reader with
  | .read .requeue, .requeueing k _ => k = 0 ∨ c.readBuf = []
  | _, _ => True

instance (c : Conn) (e : Event) : Decidable (c.RequeueInOrder e) := by
  unfold RequeueInOrder
  split <;> infer_instance

/-! ## Where the answers are -/

/-- How the delivered bytes and the read buffer are made up, for each point of `Read`. -/
def PollSplit (r : Reader) (delivered readBuf : Bytes) (o₁ o₂ : List Bytes) : Prop :=
  match r with
  | .idle | .entered _ => delivered ++ readBuf = (o₁ ++ o₂).flatten
  | .polling _ | .numbering _ | .polled _ | .failed | .requeueing 0 _ =>
    delivered = o₁.flatten ∧ readBuf = o₂.flatten
  | .requeueing (_ + 1) tail => delivered ++ tail = o₁.flatten ∧ readBuf = o₂.flatten
  | _ => False

/-- **The invariant**: every answer has been delivered, is in the read buffer, or is held by one of
the two callers. -/
structure PollInv (c : Conn) : Prop where
  /-- There is no stream. -/
  streaming : c.streaming = false
  /-- So there is no loop. -/
  loop : c.loop = .done
  /-- Where the answers are. -/
  split : ∃ o₁ o₂, (o₁ ++ o₂ ++ (c.reader.holds ++ c.writer.holds)).Perm c.responses ∧
    PollSplit c.reader c.delivered c.readBuf o₁ o₂

variable {c t : Conn} {r : Reader} {d b : Bytes} {o₁ o₂ : List Bytes}

theorem PollSplit.append (h : PollSplit r d b o₁ o₂) (resp : Bytes) :
    PollSplit r d (b ++ resp) o₁ (o₂ ++ [resp]) := by
  have hbuf : ∀ {b : Bytes}, b = o₂.flatten → b ++ resp = (o₂ ++ [resp]).flatten := by
    rintro _ rfl
    simp
  rcases r with _ | n | n | ⟨n, ch⟩ | ⟨ch, k⟩ | ch | n | n | n | _ | ⟨_ | k, tail⟩
  case idle | entered =>
    have h : d ++ b = (o₁ ++ o₂).flatten := h
    show d ++ (b ++ resp) = (o₁ ++ (o₂ ++ [resp])).flatten
    rw [← List.append_assoc d, h]
    simp
  case selecting | received | copied | putting => exact h.elim
  all_goals exact ⟨h.1, hbuf h.2⟩

theorem PollSplit.isPrefix (h : PollSplit r d b o₁ o₂) : d <+: (o₁ ++ o₂).flatten := by
  rcases r with _ | n | n | ⟨n, ch⟩ | ⟨ch, k⟩ | ch | n | n | n | _ | ⟨_ | k, tail⟩
  case idle | entered => exact ⟨b, h⟩
  case selecting | received | copied | putting => exact h.elim
  case requeueing.succ => exact ⟨tail ++ o₂.flatten, by rw [List.flatten_append, ← h.1]; simp⟩
  all_goals exact ⟨o₂.flatten, by rw [List.flatten_append, ← h.1]⟩

theorem PollInv.whole (h : c.PollInv) : c.Whole := by
  obtain ⟨o₁, o₂, hperm, hsplit⟩ := h.split
  obtain ⟨rest, hrest⟩ := hsplit.isPrefix
  refine ⟨_, hperm, rest ++ (c.reader.holds ++ c.writer.holds).flatten, ?_⟩
  rw [← List.append_assoc, hrest, ← List.flatten_append]

/-- A new answer, anywhere among the others. -/
theorem perm_insert {l₁ l₂ rs : List Bytes} (h : (l₁ ++ l₂).Perm rs) (resp : Bytes) :
    (l₁ ++ resp :: l₂).Perm (rs ++ [resp]) :=
  List.perm_middle.trans ((h.cons resp).trans (List.perm_append_singleton resp rs).symm)

/-! ## Each step keeps it -/

theorem PollInv.readStep (h : c.PollInv) {e : ReadEvent} (hc : c.RequeueInOrder (.read e))
    (hs : c.readStep e = some t) : t.PollInv := by
  obtain ⟨hstream, hloop, o₁, o₂, hperm, hsplit⟩ := h
  -- A call that ends between two answers leaves them as they are.
  have hjoin : c.delivered = o₁.flatten ∧ c.readBuf = o₂.flatten →
      c.delivered ++ c.readBuf = (o₁ ++ o₂).flatten := by
    rintro ⟨h₁, h₂⟩
    rw [h₁, h₂, List.flatten_append]
  unfold Conn.readStep at hs
  split at hs <;> rename_i hr
  all_goals first | rw [hr] at hperm hsplit | skip
  case h_1 n =>
    cases hs
    exact ⟨hstream, hloop, o₁, o₂, hperm, hsplit⟩
  case h_2 n =>
    have hsplit : c.delivered ++ c.readBuf = (o₁ ++ o₂).flatten := hsplit
    split at hs
    · rename_i hbuf
      cases hs
      rw [hbuf, List.append_nil] at hsplit
      rw [hstream]
      exact ⟨rfl, hloop, o₁ ++ o₂, [], by simpa [Reader.holds] using hperm, hsplit, hbuf⟩
    · cases hs
      refine ⟨hstream, hloop, o₁, o₂, hperm, ?_⟩
      show c.delivered ++ c.readBuf.take n ++ c.readBuf.drop n = (o₁ ++ o₂).flatten
      rw [List.append_assoc, List.take_append_drop, hsplit]
  case h_3 | h_4 | h_5 | h_6 | h_7 | h_8 => exact hsplit.elim
  case h_9 n =>
    split at hs <;> cases hs
    · exact ⟨hstream, hloop, o₁, o₂, hperm, hjoin hsplit⟩
    · exact ⟨hstream, hloop, o₁, o₂, hperm, hsplit⟩
  case h_10 n =>
    cases hs
    exact ⟨hstream, hloop, o₁, o₂, hperm, hsplit⟩
  case h_11 n resp =>
    obtain ⟨hd, hb⟩ : c.delivered = o₁.flatten ∧ c.readBuf = o₂.flatten := hsplit
    have hput : (o₁ ++ [resp] ++ o₂ ++ c.writer.holds).Perm (c.responses ++ [resp]) := by
      have hperm : (o₁ ++ (o₂ ++ c.writer.holds)).Perm c.responses := by
        simpa [Reader.holds] using hperm
      simpa using perm_insert hperm resp
    split at hs
    · cases hs
      exact ⟨hstream, hloop, o₁, o₂, hperm, hd, hb⟩
    cases hs
    split
    · rcases n with _ | n
      · refine ⟨hstream, hloop, o₁, o₂, ?_, by simpa using hd, hb⟩
        exact perm_insert (by simpa [Reader.holds] using hperm) resp
      · refine ⟨hstream, hloop, o₁ ++ [resp], o₂, hput, ?_, hb⟩
        rw [List.append_assoc, List.take_append_drop, hd]
        simp
    · rename_i hn
      refine ⟨hstream, hloop, o₁ ++ [resp], o₂, hput, ?_⟩
      show c.delivered ++ resp.take n ++ c.readBuf = (o₁ ++ [resp] ++ o₂).flatten
      rw [List.take_of_length_le (not_lt.mp hn), hd, hb]
      simp
  case h_12 =>
    cases hs
    exact ⟨hstream, hloop, o₁, o₂, hperm, hsplit⟩
  case h_13 =>
    split at hs <;> cases hs
    exact ⟨hstream, hloop, o₁, o₂, hperm, hjoin hsplit⟩
  case h_14 =>
    cases hs
    exact ⟨hstream, hloop, o₁, o₂, hperm, hjoin hsplit⟩
  case h_15 k tail =>
    have hc : k = 0 ∨ c.readBuf = [] := by simpa only [RequeueInOrder, hr] using hc
    cases hs
    rcases k with _ | k
    · refine ⟨hstream, hloop, o₁, o₂ ++ [tail], by simpa [Reader.holds] using hperm, ?_⟩
      show c.delivered ++ (c.readBuf ++ tail) = (o₁ ++ (o₂ ++ [tail])).flatten
      rw [hsplit.1, hsplit.2]
      simp
    · obtain ⟨hd, hb⟩ : c.delivered ++ tail = o₁.flatten ∧ c.readBuf = o₂.flatten := hsplit
      have hempty : c.readBuf = [] := hc.resolve_left (Nat.succ_ne_zero k)
      refine ⟨hstream, hloop, o₁, o₂, hperm, ?_⟩
      show c.delivered ++ (c.readBuf ++ tail) = (o₁ ++ o₂).flatten
      rw [List.flatten_append, ← hb, ← hd, hempty, List.nil_append, List.append_nil]
  case h_16 => exact absurd hs (by simp)

theorem PollInv.writeStep (h : c.PollInv) {e : WriteEvent} (hs : c.writeStep e = some t) :
    t.PollInv := by
  obtain ⟨hstream, hloop, o₁, o₂, hperm, hsplit⟩ := h
  unfold Conn.writeStep at hs
  split at hs <;> rename_i hw
  all_goals first | rw [hw] at hperm | skip
  case h_3 =>
    split at hs <;> cases hs
    · exact ⟨hstream, hloop, o₁, o₂, hperm, hsplit⟩
    · refine ⟨hstream, hloop, o₁, o₂, ?_, hsplit⟩
      split <;> exact hperm
  case h_10 p resp =>
    split at hs <;> cases hs
    · exact ⟨hstream, hloop, o₁, o₂, hperm, hsplit⟩
    · refine ⟨hstream, hloop, o₁, o₂, ?_, hsplit⟩
      have hperm : (o₁ ++ o₂ ++ c.reader.holds ++ []).Perm c.responses := by
        simpa [Writer.holds] using hperm
      simpa [Writer.holds] using perm_insert hperm resp
  case h_12 p resp =>
    cases hs
    refine ⟨hstream, hloop, o₁, o₂ ++ [resp], ?_, hsplit.append resp⟩
    have hswap : (o₁ ++ (o₂ ++ [resp]) ++ (c.reader.holds ++ [])).Perm
        (o₁ ++ o₂ ++ (c.reader.holds ++ [resp])) := by
      simpa [List.perm_append_left_iff] using
        (List.perm_append_singleton resp c.reader.holds).symm
    exact hswap.trans hperm
  -- The other steps of `Write` hold no answer before or after.
  all_goals repeat' split at hs
  all_goals cases hs
  all_goals exact ⟨hstream, hloop, o₁, o₂, hperm, hsplit⟩

theorem PollInv.senderStep (h : c.PollInv) {i : ℕ} {e : SenderEvent}
    (hs : c.senderStep i e = some t) : t.PollInv := by
  obtain ⟨s, _, hs⟩ := Option.bind_eq_some_iff.mp hs
  split at hs <;> cases hs <;> exact ⟨h.streaming, h.loop, h.split⟩

theorem PollInv.closeStep (h : c.PollInv) {e : CloseEvent} (hs : c.closeStep e = some t) :
    t.PollInv := by
  unfold Conn.closeStep at hs
  split at hs <;> cases hs <;> exact ⟨h.streaming, h.loop, h.split⟩

theorem PollInv.step (h : c.PollInv) {e : Event} (hc : c.RequeueInOrder e)
    (hs : c.step e = some t) : t.PollInv := by
  cases e with
  | read e => exact h.readStep hc hs
  | write e => exact h.writeStep hs
  | sender i e => exact h.senderStep hs
  | loop e =>
    have hdone : c.loopStep e = none := by simp only [loopStep, h.loop]
    exact absurd (hdone.symm.trans hs) (by simp)
  | close e => exact h.closeStep hs
  | pool e =>
    obtain ⟨p, _, rfl⟩ := Option.map_eq_some_iff.mp hs
    exact ⟨h.streaming, h.loop, h.split⟩

theorem pollInv_established (pipeWidth chanDepth : ℕ) (pool : BufPool) (k : ℕ) (resp : Bytes) :
    (established false pipeWidth chanDepth pool k resp).PollInv :=
  ⟨rfl, rfl, [resp], [], by simp [established, newTunnelConn, Reader.holds, Writer.holds],
    by simp [established, newTunnelConn, PollSplit]⟩

/-! ## Answers stay whole -/

/-- **Answers stay whole** on a polling connection, in every interleaving of reads, writes and
`Close`, as long as no rest of an answer is appended to a read buffer that is not empty. -/
theorem whole_of_exec {pipeWidth chanDepth k : ℕ} {pool : BufPool} {resp : Bytes} {c : Conn}
    {es : List Event}
    (hrun : exec step (established false pipeWidth chanDepth pool k resp) es = some c)
    (hord : Along step RequeueInOrder (established false pipeWidth chanDepth pool k resp) es) :
    c.Whole :=
  (inv_of_exec_along (fun h hc hs ↦ PollInv.step h hc hs)
    (pollInv_established pipeWidth chanDepth pool k resp) hord hrun).whole

/-- A `Read` with a buffer of `n` bytes that polls, up to the answer. -/
def pollFor (n : ℕ) (resp : Bytes) : List Event :=
  [.read (.call n), .read .lock, .read .check, .read .poll, .read (.answer (.ok resp))]

/-- A `Write` that is answered with data, up to the answer. -/
def writeFor (p resp : Bytes) : List Event :=
  [.write (.call p), .write .checkErr, .write .checkClosed, .write .send,
    .write (.answer (.ok resp)), .write .buffer]

theorem whole_of_exec_demo :
    ∃ c, exec step (established false 0 64 .empty 1 [])
        (pollFor 1 [1, 2] ++ [.read .requeue] ++ writeFor [7] [3] ++
          [.read (.call 9), .read .lock]) = some c ∧
      c.delivered = [1, 2, 3] ∧ c.Whole := by
  have hrun : (exec step (established false 0 64 .empty 1 [])
      (pollFor 1 [1, 2] ++ [.read .requeue] ++ writeFor [7] [3] ++
        [.read (.call 9), .read .lock])).map Conn.delivered = some [1, 2, 3] := by
    decide +kernel
  obtain ⟨c, hc, hd⟩ := Option.map_eq_some_iff.mp hrun
  exact ⟨c, hc, hd, whole_of_exec hc (by decide +kernel)⟩

/-- **An answer is torn apart**: `Read` has delivered the first byte of `[1, 2]`, `Write` puts its
answer `[3]` into the read buffer, and `Read` appends the second byte after it. -/
theorem answer_torn_apart :
    ∃ c, exec step (established false 0 64 .empty 1 [])
        (pollFor 1 [1, 2] ++ writeFor [7] [3] ++
          [.read .requeue, .read (.call 9), .read .lock]) = some c ∧
      c.delivered = [1, 3, 2] ∧ c.responses = [[], [1, 2], [3]] ∧ ¬ c.Whole := by
  have hrun : (exec step (established false 0 64 .empty 1 [])
      (pollFor 1 [1, 2] ++ writeFor [7] [3] ++
        [.read .requeue, .read (.call 9), .read .lock])).map
      (fun c ↦ (c.delivered, c.responses)) = some ([1, 3, 2], [[], [1, 2], [3]]) := by
    decide +kernel
  obtain ⟨c, hc, hd⟩ := Option.map_eq_some_iff.mp hrun
  obtain ⟨hd, hr⟩ := Prod.mk.inj hd
  refine ⟨c, hc, hd, hr, ?_⟩
  rintro ⟨order, hperm, hpre⟩
  rw [hd] at hpre
  rw [hr, ← List.mem_permutations'] at hperm
  have hno : ∀ order ∈ ([[], [1, 2], [3]] : List Bytes).permutations',
      ¬ ([1, 3, 2] : Bytes) <+: order.flatten := by
    decide +kernel
  exact hno order hperm hpre

end Conn

end TunnelCat.Session
