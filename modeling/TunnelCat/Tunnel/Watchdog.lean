import Mathlib.Algebra.Group.Int.Defs
import Mathlib.Data.List.Induction
import Mathlib.Data.List.Pairwise

/-!
# The watchdog

`TunnelMonitor` is told about every payload that goes through the tunnel in either direction, and
the watchdog asks it whether the tunnel is stuck.  It remembers three points in time: the first and
the last time something was sent, and the last time something was received, all of them since the
last `Reset`.

`run_eq` says what the three are of a whole history: the head and the last element of the list of
times at which something was sent, and the last element of the list of times at which something was
received.  They do not tell when the first payload was sent after the last one that was received,
and this is what the timeout is documented to be about: how long outbound traffic can go unanswered.

The monitor takes the time since the last payload was received instead.  After an idle period this
is as long as the period, so the first payload that is sent makes the tunnel stuck at once.
`isStuck_sound_iff` says that there is nothing else: the verdict is right for every history but
those in which the last payload was received long ago and everything sent after it is recent.
-/

set_option autoImplicit false

namespace TunnelCat.Watchdog

/-! ## The monitor -/

/-- `tunnelStuckTimeout`, in nanoseconds. -/
def tunnelStuckTimeout : ℤ := 10 * 1000000000

/-- `TunnelTrafficMonitor`; the zero value of `time.Time` is `none`. -/
structure TunnelTrafficMonitor where
  /-- The first send since the last `Reset`. -/
  firstSentAt : Option ℤ
  /-- The last send. -/
  lastSentAt : Option ℤ
  /-- The last receive. -/
  lastGoodRecvAt : Option ℤ
  deriving DecidableEq, Repr

/-- A call that changes the monitor, with the time it is made at. -/
inductive Event where
  /-- `RecordTunnelSent` of `n` bytes. -/
  | sent (n : ℤ) (now : ℤ)
  /-- `RecordTunnelRecv` of `n` bytes. -/
  | recv (n : ℤ) (now : ℤ)
  /-- `Reset`. -/
  | reset (now : ℤ)
  deriving DecidableEq, Repr

/-- When the call is made. -/
def Event.now : Event → ℤ
  | sent _ now | recv _ now | reset now => now

namespace TunnelTrafficMonitor

/-- The monitor at the start, and after a `Reset`. -/
def new : TunnelTrafficMonitor := ⟨none, none, none⟩

/-- `RecordTunnelSent`.  It reads the clock twice, under one lock; this is one reading here. -/
def recordTunnelSent (m : TunnelTrafficMonitor) (n now : ℤ) : TunnelTrafficMonitor :=
  if n = 0 then m
  else
    { m with
      firstSentAt := if m.firstSentAt = none then some now else m.firstSentAt
      lastSentAt := some now }

/-- `RecordTunnelRecv`. -/
def recordTunnelRecv (m : TunnelTrafficMonitor) (n now : ℤ) : TunnelTrafficMonitor :=
  if n = 0 then m else { m with lastGoodRecvAt := some now }

/-- The monitor after a call. -/
def step (m : TunnelTrafficMonitor) : Event → TunnelTrafficMonitor
  | .sent n now => m.recordTunnelSent n now
  | .recv n now => m.recordTunnelRecv n now
  | .reset _ => new

/-- The monitor after all calls. -/
def run (es : List Event) : TunnelTrafficMonitor := es.foldl step new

/-- `IsStuck`.  The zero value of `firstSentAt` would be longer ago than any timeout. -/
def isStuck (m : TunnelTrafficMonitor) (now : ℤ) : Bool :=
  match m.lastSentAt with
  | none => false
  | some sent =>
    if now - sent > tunnelStuckTimeout then false
    else
      match m.lastGoodRecvAt with
      | none =>
        match m.firstSentAt with
        | none => true
        | some firstSent => now - firstSent > tunnelStuckTimeout
      | some recv => now - recv > tunnelStuckTimeout

end TunnelTrafficMonitor

open TunnelTrafficMonitor

/-! ## The history -/

/-- What one call does to the times at which something was sent since the last `Reset`. -/
def addSend (times : List ℤ) : Event → List ℤ
  | .sent n now => if n = 0 then times else times ++ [now]
  | .recv _ _ => times
  | .reset _ => []

/-- What one call does to the times at which something was received since the last `Reset`. -/
def addRecv (times : List ℤ) : Event → List ℤ
  | .sent _ _ => times
  | .recv n now => if n = 0 then times else times ++ [now]
  | .reset _ => []

/-- The times at which a payload was sent since the last `Reset`. -/
def sends (es : List Event) : List ℤ := es.foldl addSend []

/-- The times at which a payload was received since the last `Reset`. -/
def recvs (es : List Event) : List ℤ := es.foldl addRecv []

/-- Some payload has gone without an answer for longer than the timeout: it was sent that long ago,
and nothing was received since. -/
def Unanswered (es : List Event) (now : ℤ) : Prop :=
  ∃ s ∈ sends es, now - s > tunnelStuckTimeout ∧ ∀ t ∈ recvs es, ¬(s ≤ t ∧ t ≤ now)

/-- Something was sent for the first time after an idle period: the last payload was received longer
ago than the timeout, and there are payloads sent after it, but none as long ago as that. -/
def FreshAfterIdle (es : List Event) (now : ℤ) : Prop :=
  ∃ t ∈ (recvs es).getLast?, now - t > tunnelStuckTimeout ∧
    (∃ s ∈ sends es, t < s) ∧ ∀ s ∈ sends es, t < s → now - s ≤ tunnelStuckTimeout

instance (es : List Event) (now : ℤ) : Decidable (Unanswered es now) :=
  inferInstanceAs (Decidable (∃ s ∈ sends es, _))

/-- The calls are made one after the other, and `IsStuck` after all of them. -/
def InOrder (es : List Event) (now : ℤ) : Prop :=
  (es.map Event.now).Pairwise (· ≤ ·) ∧ ∀ e ∈ es, e.now ≤ now

instance (es : List Event) (now : ℤ) : Decidable (InOrder es now) :=
  inferInstanceAs (Decidable (_ ∧ _))

variable {es : List Event} {now : ℤ}

theorem sends_concat (es : List Event) (e : Event) : sends (es ++ [e]) = addSend (sends es) e := by
  rw [sends, List.foldl_append]
  rfl

theorem recvs_concat (es : List Event) (e : Event) : recvs (es ++ [e]) = addRecv (recvs es) e := by
  rw [recvs, List.foldl_append]
  rfl

/-- **What the monitor knows of a history.** -/
theorem run_eq (es : List Event) :
    run es = ⟨(sends es).head?, (sends es).getLast?, (recvs es).getLast?⟩ := by
  induction es using List.reverseRecOn with
  | nil => rfl
  | append_singleton es e ih =>
    have hstep : run (es ++ [e]) = (run es).step e := by
      rw [run, List.foldl_append]
      rfl
    rw [hstep, ih, sends_concat, recvs_concat]
    cases e with
    | sent n t =>
      rw [step, recordTunnelSent, addSend, addRecv]
      split
      · rfl
      · rw [List.getLast?_concat, List.head?_append]
        cases (sends es).head? with
        | none => rfl
        | some first => rfl
    | recv n t =>
      rw [step, recordTunnelRecv, addSend, addRecv]
      split
      · rfl
      · rw [List.getLast?_concat]
    | reset t => rfl

/-- What is remembered are times of calls, in the order of the calls. -/
theorem sublist_times (es : List Event) :
    (sends es).Sublist (es.map Event.now) ∧ (recvs es).Sublist (es.map Event.now) := by
  induction es using List.reverseRecOn with
  | nil => exact ⟨.slnil, .slnil⟩
  | append_singleton es e ih =>
    have hskip : ∀ {l : List ℤ}, l.Sublist (es.map Event.now) →
        l.Sublist ((es ++ [e]).map Event.now) := fun h ↦ by
      rw [List.map_append]
      exact h.trans (List.sublist_append_left _ _)
    have hadd : ∀ {l : List ℤ}, l.Sublist (es.map Event.now) →
        (l ++ [e.now]).Sublist ((es ++ [e]).map Event.now) := fun h ↦ by
      rw [List.map_append]
      exact h.append (.refl _)
    rw [sends_concat, recvs_concat]
    cases e with
    | sent n t =>
      rw [addSend, addRecv]
      refine ⟨?_, hskip ih.2⟩
      split
      · exact hskip ih.1
      · exact hadd ih.1
    | recv n t =>
      rw [addSend, addRecv]
      refine ⟨hskip ih.1, ?_⟩
      split
      · exact hskip ih.2
      · exact hadd ih.2
    | reset t => exact ⟨List.nil_sublist _, List.nil_sublist _⟩

/-- In a list in order, the last element is the greatest. -/
theorem le_of_mem_getLast? {l : List ℤ} (hl : l.Pairwise (· ≤ ·)) {last x : ℤ}
    (hlast : last ∈ l.getLast?) (hx : x ∈ l) : x ≤ last := by
  obtain ⟨init, rfl⟩ := List.getLast?_eq_some_iff.mp hlast
  rw [List.pairwise_append] at hl
  rcases List.mem_append.mp hx with hx | hx
  · exact hl.2.2 x hx last (List.mem_singleton_self last)
  · exact Int.le_of_eq (List.mem_singleton.mp hx)

/-! ## The verdict -/

/-- When the tunnel is stuck, in terms of the history. -/
theorem isStuck_run_iff (es : List Event) (now : ℤ) :
    (run es).isStuck now = true ↔
      ∃ sent ∈ (sends es).getLast?, now - sent ≤ tunnelStuckTimeout ∧
        (recvs es = [] ∧ (∃ first ∈ (sends es).head?, now - first > tunnelStuckTimeout) ∨
          ∃ recv ∈ (recvs es).getLast?, now - recv > tunnelStuckTimeout) := by
  rw [run_eq, isStuck]
  cases hsent : (sends es).getLast? with
  | none =>
    refine ⟨fun h ↦ absurd h Bool.false_ne_true, ?_⟩
    rintro ⟨_, h, -⟩
    cases h
  | some sent =>
    have hne : sends es ≠ [] := by
      intro hnil
      rw [hnil] at hsent
      cases hsent
    obtain ⟨first, rest, hfirst⟩ := List.exists_cons_of_ne_nil hne
    have hhead : (sends es).head? = some first := by rw [hfirst, List.head?_cons]
    dsimp only
    by_cases hidle : now - sent > tunnelStuckTimeout
    · rw [if_pos hidle]
      refine ⟨fun h ↦ absurd h Bool.false_ne_true, ?_⟩
      rintro ⟨_, h, hle, -⟩
      cases h
      omega
    · rw [if_neg hidle, hhead]
      cases hrecv : (recvs es).getLast? with
      | none =>
        have hnil : recvs es = [] := List.getLast?_eq_none_iff.mp hrecv
        dsimp only
        rw [decide_eq_true_eq]
        refine ⟨fun h ↦ ⟨sent, rfl, by omega, .inl ⟨hnil, first, rfl, h⟩⟩, ?_⟩
        rintro ⟨_, -, -, ⟨-, _, h, hlong⟩ | ⟨_, h, -⟩⟩
        · cases h
          exact hlong
        · cases h
      | some recv =>
        dsimp only
        rw [decide_eq_true_eq]
        refine ⟨fun h ↦ ⟨sent, rfl, by omega, .inr ⟨recv, rfl, h⟩⟩, ?_⟩
        rintro ⟨_, -, -, ⟨hnil, -⟩ | ⟨_, h, hlong⟩⟩
        · rw [hnil] at hrecv
          cases hrecv
        · cases h
          exact hlong

/-- **When the verdict is right**: a tunnel that is stuck has a payload that went without an answer
for longer than the timeout, unless something was sent for the first time after an idle period; and
then it does not. -/
theorem isStuck_sound_iff (es : List Event) (now : ℤ) (horder : InOrder es now) :
    ((run es).isStuck now = true → Unanswered es now) ↔ ¬FreshAfterIdle es now := by
  obtain ⟨hsub_sends, hsub_recvs⟩ := sublist_times es
  have hsends : (sends es).Pairwise (· ≤ ·) := horder.1.sublist hsub_sends
  have hrecvs : (recvs es).Pairwise (· ≤ ·) := horder.1.sublist hsub_recvs
  have hpast : ∀ t ∈ recvs es, t ≤ now := by
    intro t ht
    obtain ⟨e, he, rfl⟩ := List.mem_map.mp (hsub_recvs.subset ht)
    exact horder.2 e he
  rw [isStuck_run_iff]
  refine ⟨?_, ?_⟩
  · -- after an idle period the tunnel is stuck, and everything sent long ago was answered
    rintro hsound ⟨t, ht, hlong, ⟨s, hs, hts⟩, hfresh⟩
    obtain ⟨last, hlast⟩ : ∃ last, last ∈ (sends es).getLast? := by
      cases hlast : (sends es).getLast? with
      | none =>
        rw [List.getLast?_eq_none_iff.mp hlast] at hs
        exact absurd hs List.not_mem_nil
      | some last => exact ⟨last, rfl⟩
    have hle := le_of_mem_getLast? hsends hlast hs
    have hrecent := hfresh last (List.mem_of_getLast? hlast) (by omega)
    obtain ⟨s', hs', hlong', hnone⟩ :=
      hsound ⟨last, hlast, hrecent, .inr ⟨t, ht, hlong⟩⟩
    have hmem : t ∈ recvs es := List.mem_of_getLast? ht
    by_cases hts' : t < s'
    · have := hfresh s' hs' hts'
      omega
    · exact hnone t hmem ⟨by omega, hpast t hmem⟩
  · rintro hfresh ⟨last, hlast, hrecent, ⟨hnil, first, hfirst, hlong⟩ | ⟨t, ht, hlong⟩⟩
    · -- nothing was received: the first payload is without an answer
      refine ⟨first, List.mem_of_head? hfirst, hlong, fun t ht ↦ ?_⟩
      rw [hnil] at ht
      exact absurd ht List.not_mem_nil
    · -- something else than the fresh payloads was sent after the last one that was received
      by_contra hnone
      refine hfresh ⟨t, ht, hlong, ⟨last, List.mem_of_getLast? hlast, by omega⟩, ?_⟩
      intro s hs hts
      by_contra hlate
      refine hnone ⟨s, hs, by omega, fun t' ht' h ↦ ?_⟩
      have := le_of_mem_getLast? hrecvs ht ht'
      omega

/-- Two payloads are sent, twelve seconds apart, and nothing is received. -/
theorem isStuck_sound_iff_silent :
    (run [.sent 1 0, .sent 1 12000000000]).isStuck 12000000000 = true ∧
      Unanswered [.sent 1 0, .sent 1 12000000000] 12000000000 := by
  have hstuck : (run [.sent 1 0, .sent 1 12000000000]).isStuck 12000000000 = true := by decide
  refine ⟨hstuck, (isStuck_sound_iff _ _ (by decide)).mpr ?_ hstuck⟩
  rintro ⟨_, h, -⟩
  cases h

/-- A payload is answered after a second.  The next one is sent a hundred seconds later, and the
tunnel is stuck at that moment. -/
theorem stuck_at_once :
    InOrder [.sent 1 0, .recv 1 1000000000, .sent 1 100000000000] 100000000000 ∧
    (run [.sent 1 0, .recv 1 1000000000, .sent 1 100000000000]).isStuck 100000000000 = true ∧
    ¬Unanswered [.sent 1 0, .recv 1 1000000000, .sent 1 100000000000] 100000000000 := by
  decide

end TunnelCat.Watchdog
