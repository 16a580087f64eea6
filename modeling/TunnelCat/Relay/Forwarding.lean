import Mathlib.Data.List.Perm.Subperm
import TunnelCat.Relay.Routing

/-!
# How often a request is executed

A `RoundTrip` that gets no answer in time writes its frame again, under the same id, and the other
side starts a goroutine for every request it reads: nothing looks whether a request with that id was
seen before.  So a request may be made of the control node more than once.  Two things bound how
often.

* `Served`: a request to the control node is made at most once for each datagram that was read.
* `Budget`: a call writes its frame at most three times.

If the network does not copy datagrams, a call therefore causes at most three requests to the
control node.
-/

set_option autoImplicit false

open Trace

namespace TunnelCat.Relay

/-! ## Positions in a list -/

section

variable {α : Type}

/-- The positions of the elements with a property are as many as these elements. -/
theorem countP_range_getElem (p : α → Bool) (l : List α) :
    (List.range l.length).countP (fun k ↦ l[k]?.any p) = l.countP p := by
  induction l using List.reverseRecOn with
  | nil => rfl
  | append_singleton l a ih =>
    have hold : (List.range l.length).countP (fun k ↦ (l ++ [a])[k]?.any p) = l.countP p := by
      rw [← ih]
      refine List.countP_congr fun k hk ↦ ?_
      rw [List.getElem?_append_left (List.mem_range.mp hk)]
    rw [List.length_append, List.length_singleton, List.range_succ, List.countP_append, hold,
      List.countP_append]
    simp

/-- Distinct positions of elements with a property are no more than these elements. -/
theorem countP_getElem_le {ks : List ℕ} (hks : ks.Nodup) (p : α → Bool) (l : List α) :
    ks.countP (fun k ↦ l[k]?.any p) ≤ l.countP p := by
  rw [← countP_range_getElem p l, List.countP_eq_length_filter, List.countP_eq_length_filter]
  refine (List.Nodup.subperm (hks.filter _) fun k hk ↦ ?_).length_le
  rw [List.mem_filter] at hk ⊢
  refine ⟨List.mem_range.mpr ?_, hk.2⟩
  by_contra hlong
  rw [List.getElem?_eq_none (not_lt.mp hlong)] at hk
  exact absurd hk.2 (by simp)

end

/-! ## What is forwarded -/

namespace Conn

variable {c c' : Conn}

/-- The datagrams of a kind that a goroutine was started for and that it has not forwarded yet. -/
def starting (c : Conn) (q : ℕ → Bool) : ℕ :=
  c.serves.countP fun v ↦ v.state = .starting ∧ q v.packet

/-- Each datagram that was read is forwarded at most once. -/
def Served (c : Conn) : Prop :=
  ∀ q : ℕ → Bool, (c.posts.countP fun p ↦ q p.packet) + c.starting q ≤
    c.received.countP fun x ↦ q x.1

theorem Served.of_moved (h : c.Served) (hmoved : c.Moved c') : c'.Served := by
  intro q
  have hq := h q
  cases hmoved with
  | request | offer => exact hq
  | trip ht moved =>
    rwa [starting, moved.posts, moved.serves, moved.received]
  | @serve j s s' _ hs moved =>
    obtain ⟨hj, hget⟩ := List.getElem?_eq_some_iff.mp hs
    have hstarting : c'.starting q =
        c.starting q - if s.state = .starting ∧ q s.packet then 1 else 0 := by
      rw [starting, moved.serves, List.countP_set hj, hget]
      simp [starting, moved.started]
    rw [moved.received, hstarting]
    rcases moved.posts with hposts | ⟨hstate, p, hposts, hpacket⟩
    · rw [hposts]
      omega
    · -- The one that is forwarded was counted as starting.
      rw [hposts, List.countP_append, List.countP_singleton, hpacket]
      by_cases hkind : q s.packet = true
      · have hpos : 0 < c.starting q :=
          List.countP_pos_iff.mpr ⟨s, List.mem_of_getElem? hs, by simp [hstate, hkind]⟩
        simp only [hstate, hkind, and_self, if_true]
        omega
      · simp only [hkind, and_false, if_false, Bool.false_eq_true]
        omega
  | background moved =>
    rwa [starting, moved.posts, moved.serves, moved.received]

theorem Served.read (h : c.Served) {k : ℕ} {frame : Bytes} (hstep : c.read k frame = some c') :
    c'.Served := by
  intro q
  have hq := h q
  rcases read_spec hstep with rfl | hreads
  · exact hq
  rw [hreads.posts, hreads.received, List.countP_append]
  rcases hreads.serves with hserves | ⟨s, hserves, hpacket, hstate, -⟩
  · rw [starting, hserves]
    exact hq.trans (Nat.le_add_right _ _)
  · rw [starting, hserves, List.countP_append, List.countP_singleton, List.countP_singleton,
      ← Nat.add_assoc]
    refine Nat.add_le_add hq ?_
    simp [hpacket, hstate]

/-- The number of times a call has written its frame. -/
def writes (c : Conn) (i : ℕ) : ℕ := c.out.countP fun p ↦ p.origin = .trip i

/-- A call has written its frame no more often than it has come to. -/
def Budget (c : Conn) : Prop :=
  ∀ i, c.writes i ≤ (c.trips[i]?.map fun t ↦ t.state.written).getD 0

/-- What others write does not count. -/
theorem writes_concat (i : ℕ) {p : Packet} (hout : c'.out = c.out ++ [p]) :
    c'.writes i = c.writes i + if p.origin = .trip i then 1 else 0 := by
  rw [writes, writes, hout, List.countP_append, List.countP_singleton]
  simp

theorem Budget.of_moved (h : c.Budget) (hmoved : c.Moved c') : c'.Budget := by
  intro k
  have hk := h k
  cases hmoved with
  | request =>
    refine hk.trans ?_
    cases ht : c.trips[k]? with
    | none => exact Nat.zero_le _
    | some t =>
      have hlt : k < c.trips.length := (List.getElem?_eq_some_iff.mp ht).1
      simp only [List.getElem?_append_left hlt, ht, le_refl]
  | @trip i t t' _ ht moved =>
    have hi : i < c.trips.length := (List.getElem?_eq_some_iff.mp ht).1
    rw [moved.trips]
    by_cases hki : k = i
    · subst hki
      rw [List.getElem?_set_self hi]
      rw [ht] at hk
      simp only [Option.map_some, Option.getD_some] at hk ⊢
      rcases moved.out with ⟨hout, hle⟩ | ⟨hout, hnext⟩
      · rw [writes, hout]
        exact hk.trans hle
      · rw [writes_concat k hout, if_pos rfl, hnext]
        exact Nat.add_le_add_right hk 1
    · rw [List.getElem?_set_ne (Ne.symm hki)]
      refine le_trans (le_of_eq ?_) hk
      rcases moved.out with ⟨hout, -⟩ | ⟨hout, -⟩
      · rw [writes, hout, writes]
      · rw [writes_concat k hout, if_neg (by simpa using Ne.symm hki), Nat.add_zero]
  | @offer i t resp hreader ht =>
    have hi : i < c.trips.length := (List.getElem?_eq_some_iff.mp ht).1
    refine hk.trans (le_of_eq ?_)
    by_cases hki : k = i
    · subst hki
      simp [putTrip, ht, List.getElem?_set_self hi]
    · simp [putTrip, List.getElem?_set_ne (Ne.symm hki)]
  | serve hs moved =>
    rw [moved.trips]
    refine le_trans (le_of_eq ?_) hk
    rcases moved.out with hout | ⟨resp, -, hout⟩
    · rw [writes, hout, writes]
    · rw [writes_concat k hout, if_neg nofun, Nat.add_zero]
  | background moved =>
    rw [moved.trips]
    refine le_trans (le_of_eq ?_) hk
    rcases moved.out with hout | ⟨id, hout | hout⟩
    · rw [writes, hout, writes]
    · rw [writes_concat k hout, if_neg nofun, Nat.add_zero]
    · rw [writes_concat k hout, if_neg nofun, Nat.add_zero]

theorem Budget.read (h : c.Budget) {k : ℕ} {frame : Bytes} (hstep : c.read k frame = some c') :
    c'.Budget := by
  rcases read_spec hstep with rfl | hreads
  · exact h
  · intro i
    rw [writes, hreads.out, hreads.trips]
    exact h i

theorem Budget.writes_le (h : c.Budget) (i : ℕ) : c.writes i ≤ udpRelayRetries := by
  refine (h i).trans ?_
  cases c.trips[i]? with
  | none => exact Nat.zero_le _
  | some t => exact t.state.written_le

end Conn

/-! ## What a call causes -/

namespace Link

/-- Whether a datagram was written by the `i`-th call of one end. -/
def causes (l : Link) (s : Side) (i k : ℕ) : Bool := (l s).out[k]?.any fun p ↦ p.origin = .trip i

/-- The requests that the other end makes of its control node because of a call. -/
def forwarded (l : Link) (s : Side) (i : ℕ) : ℕ :=
  (l s.other).posts.countP fun p ↦ l.causes s i p.packet

/-- The copies of the call's frame that the other end has read. -/
def copies (l : Link) (s : Side) (i : ℕ) : ℕ :=
  (l s.other).received.countP fun x ↦ l.causes s i x.1

/-- No datagram was delivered twice to the other end. -/
def Uncopied (l : Link) (s : Side) : Prop := ((l s.other).received.map Prod.fst).Nodup

end Link

/-- **A request is executed at most once per copy of its frame that is read**, and at most three
times if the network makes no copies. -/
theorem forwarded_le {controlURL : Side → String} {es : List Link.Event} {l : Link}
    (h : exec Link.step (Link.new controlURL) es = some l) (s : Side) (i : ℕ) :
    l.forwarded s i ≤ l.copies s i ∧ (l s).writes i ≤ udpRelayRetries ∧
      (l.Uncopied s → l.forwarded s i ≤ udpRelayRetries) := by
  have hserved : ∀ r, (l r).Served :=
    Trace.inv_of_exec (Link.keeps Conn.Served.of_moved fun hc hread ↦ hc.read hread)
      (fun _ _ ↦ le_rfl) h
  have hbudget : ∀ r, (l r).Budget :=
    Trace.inv_of_exec (Link.keeps Conn.Budget.of_moved fun hc hread ↦ hc.read hread)
      (fun _ _ ↦ Nat.zero_le _) h
  have hcopies : l.forwarded s i ≤ l.copies s i :=
    (Nat.le_add_right _ _).trans (hserved s.other (l.causes s i))
  refine ⟨hcopies, (hbudget s).writes_le i, fun honce ↦ ?_⟩
  calc l.forwarded s i ≤ l.copies s i := hcopies
    _ = ((l s.other).received.map Prod.fst).countP (l.causes s i) := by
      rw [List.countP_map]; rfl
    _ ≤ (l s).writes i := countP_getElem_le honce _ _
    _ ≤ udpRelayRetries := (hbudget s).writes_le i

/-- A request whose answer is slow: it is written a second time before the first copy is served, and
the call returns the response to the first. -/
def slowAnswer : List Link.Event :=
  [.act .client (.roundTrip 7 [47] [1, 2] [3]), .act .client (.trip 0 (.write none)),
    .deliver .server 0, .act .server (.serve 0 (.forward true)), .act .client (.trip 0 .timeout),
    .act .client (.trip 0 (.write none)), .deliver .server 1,
    .act .server (.serve 1 (.forward true)),
    .act .server (.serve 0 (.answer (.ok ⟨200, [4]⟩))), .act .server (.serve 0 (.write none)),
    .deliver .client 0, .act .client (.reader .offer), .act .client (.trip 0 .receive),
    .act .client (.trip 0 .succeed), .act .client (.trip 0 .leave)]

theorem forwarded_le_slowAnswer :
    ∃ l, exec Link.step (Link.new fun _ ↦ "https://control") slowAnswer = some l ∧
      l.Uncopied .client ∧ l.forwarded .client 0 ≤ l.copies .client 0 ∧
      l.forwarded .client 0 ≤ udpRelayRetries := by
  have hrun : (exec Link.step (Link.new fun _ ↦ "https://control") slowAnswer).map
      (fun l ↦ (l .server).received.map Prod.fst) = some [0, 1] := by decide +kernel
  obtain ⟨l, hl, hread⟩ := Option.map_eq_some_iff.mp hrun
  have honce : l.Uncopied .client := by
    rw [Link.Uncopied, Side.other, hread]
    decide
  obtain ⟨hcopies, -, hle⟩ := forwarded_le hl .client 0
  exact ⟨l, hl, honce, hcopies, hle honce⟩

/-- A single call, whose frames the network neither loses nor copies, is executed twice. -/
theorem forwarded_twice :
    ∃ l, exec Link.step (Link.new fun _ ↦ "https://control") slowAnswer = some l ∧
      (l .client).trips.length = 1 ∧ l.forwarded .client 0 = 2 := by
  have hrun : (exec Link.step (Link.new fun _ ↦ "https://control") slowAnswer).map
      (fun l ↦ ((l .client).trips.length, l.forwarded .client 0)) = some (1, 2) := by
    decide +kernel
  obtain ⟨l, hl, hfacts⟩ := Option.map_eq_some_iff.mp hrun
  simp only [Prod.mk.injEq] at hfacts
  exact ⟨l, hl, hfacts⟩

end TunnelCat.Relay
