import Mathlib.Data.List.DropRight
import TunnelCat.Relay.Steps

/-!
# Responses reach the request they belong to

What goes on between two relay transports can be read off in four parts, each an invariant of every
step.

* `Routes`: `pending` has one entry for each request in progress, and whatever is in the channel of
  a request, or has come out of it, was read in a response with its id.
* `Provenance`: every datagram was written for a request, for a response or as a keepalive, and
  every request that is served was read.
* `Connected`: what was read was written by the other side.
* `Counted`: `failCount` is the number of failures since the last success, so a request that sets
  `failed` is the fifth failure in a row.

`Routed` puts them together.  A late response finds no entry, or the entry of another request that
has drawn the same id; if ids are not drawn twice, a response is for the very request.
-/

set_option autoImplicit false

open Function

namespace TunnelCat.Relay

/-! ## Requests in progress -/

namespace Conn

variable {c c' : Conn} {i : ℕ} {t t' : Trip}

/-- A response with this id was read. -/
def Answered (c : Conn) (reqID : UInt32) (resp : Resp) : Prop :=
  ∃ x ∈ c.received, header x.2 = some (reqID, udpRelayTypeResponse) ∧
    udpDecodeResponse x.2 = some resp

/-- What `pending` and the channels are good for. -/
structure Routes (c : Conn) : Prop where
  /-- There is one entry for each request in progress, under its id. -/
  pending_iff : ∀ id i, c.pending id = some i ↔
    ∃ t, c.trips[i]? = some t ∧ t.reqID = id ∧ t.inProgress = true
  /-- What has come to a request was read in a response with its id. -/
  answered : ∀ (i : ℕ) (t : Trip), c.trips[i]? = some t → ∀ resp ∈ t.holds, c.Answered t.reqID resp
  /-- So is what the read loop is about to put into a channel. -/
  holding : ∀ i resp, c.reader = .holding i resp →
    ∃ t, c.trips[i]? = some t ∧ c.Answered t.reqID resp

variable {p : Packet} {id : UInt32} {frame : Bytes}

theorem Answered.mono (hrecv : ∀ x ∈ c.received, x ∈ c'.received) {resp : Resp}
    (h : c.Answered id resp) : c'.Answered id resp := by
  obtain ⟨x, hx, hh⟩ := h
  exact ⟨x, hrecv x hx, hh⟩

/-- The request whose entry is looked up is the one in progress. -/
theorem Routes.eq_of_inProgress (h : c.Routes) (ht : c.trips[i]? = some t)
    (hin : t.inProgress = true) {j : ℕ} {u : Trip} (hu : c.trips[j]? = some u)
    (hin' : u.inProgress = true) (hid : u.reqID = t.reqID) : j = i := by
  have hi := (h.pending_iff t.reqID i).mpr ⟨t, ht, rfl, hin⟩
  have hj := (h.pending_iff t.reqID j).mpr ⟨u, hu, hid, hin'⟩
  exact Option.some_inj.mp (hj.symm.trans hi)

/-- The entries, when a request moves on and its own is deleted with it, or kept. -/
theorem Routes.pending_iff_of_set (h : c.Routes) (ht : c.trips[i]? = some t)
    (hself : c'.trips[i]? = some t') (hother : ∀ j, j ≠ i → c'.trips[j]? = c.trips[j]?)
    (hid : t'.reqID = t.reqID) (hpend : c'.pending = c.pending ∧ t'.inProgress = t.inProgress ∨
      c'.pending = update c.pending t.reqID none ∧ t.inProgress = true ∧
        t'.inProgress = false) (id : UInt32) (j : ℕ) :
    c'.pending id = some j ↔ ∃ u, c'.trips[j]? = some u ∧ u.reqID = id ∧ u.inProgress = true := by
  by_cases hj : j = i
  · subst hj
    rcases hpend with ⟨hsame, hin⟩ | ⟨hdel, hin, hout⟩
    · rw [hsame, h.pending_iff, hself, ht]
      simp [hid, hin]
    · simp only [hself, Option.some_inj, exists_eq_left', hout, Bool.false_eq_true, and_false,
        iff_false, hdel]
      by_cases hdraw : id = t.reqID
      · simp [hdraw]
      · rw [update_of_ne hdraw, h.pending_iff, ht]
        simp [Ne.symm hdraw]
  · rw [hother j hj, ← h.pending_iff]
    rcases hpend with ⟨hsame, -⟩ | ⟨hdel, hin, -⟩
    · rw [hsame]
    · rw [hdel]
      by_cases hdraw : id = t.reqID
      · subst hdraw
        have hown := (h.pending_iff t.reqID i).mpr ⟨t, ht, rfl, hin⟩
        simp [hown, Ne.symm hj]
      · rw [update_of_ne hdraw]

/-- A request moves on: it keeps its id, and its entry exactly as long as it is in progress. -/
theorem Routes.set (h : c.Routes) (ht : c.trips[i]? = some t) (htrips : c'.trips = c.trips.set i t')
    (hid : t'.reqID = t.reqID) (hrecv : c'.received = c.received)
    (hholds : ∀ resp ∈ t'.holds, c.Answered t.reqID resp)
    (hreader : ∀ j resp, c'.reader = .holding j resp → c.reader = .holding j resp)
    (hpend : c'.pending = c.pending ∧ t'.inProgress = t.inProgress ∨
      c'.pending = update c.pending t.reqID none ∧ t.inProgress = true ∧
        t'.inProgress = false) : c'.Routes := by
  have hi : i < c.trips.length := (List.getElem?_eq_some_iff.mp ht).1
  have hself : c'.trips[i]? = some t' := by rw [htrips, List.getElem?_set_self hi]
  have hother : ∀ j, j ≠ i → c'.trips[j]? = c.trips[j]? := fun j hj ↦ by
    rw [htrips, List.getElem?_set_ne (Ne.symm hj)]
  have hanswered : ∀ {id resp}, c.Answered id resp → c'.Answered id resp :=
    fun ha ↦ ha.mono fun x hx ↦ hrecv ▸ hx
  refine ⟨h.pending_iff_of_set ht hself hother hid hpend, fun j u hu resp hresp ↦ ?_,
    fun j resp hj ↦ ?_⟩
  · by_cases hj : j = i
    · subst hj
      rw [hself, Option.some_inj] at hu
      subst hu
      rw [hid]
      exact hanswered (hholds resp hresp)
    · rw [hother j hj] at hu
      exact hanswered (h.answered j u hu resp hresp)
  · obtain ⟨u, hu, ha⟩ := h.holding j resp (hreader j resp hj)
    by_cases hji : j = i
    · subst hji
      rw [ht, Option.some_inj] at hu
      subst hu
      exact ⟨t', hself, hid ▸ hanswered ha⟩
    · exact ⟨u, (hother j hji).trans hu, hanswered ha⟩

/-- A request starts, with an id that has no entry. -/
theorem Routes.request (h : c.Routes) {reqID : UInt32} {path token body : Bytes}
    (hfree : c.pending reqID = none) :
    Routes { c with
      pending := update c.pending reqID (some c.trips.length)
      trips := c.trips ++ [⟨reqID, path, token, body, none, .writing firstAttempt⟩] } := by
  have hnew : ∀ {j u}, (c.trips ++ [⟨reqID, path, token, body, none, .writing firstAttempt⟩])[j]? =
      some u ↔ c.trips[j]? = some u ∨
        j = c.trips.length ∧ u = ⟨reqID, path, token, body, none, .writing firstAttempt⟩ := by
    intro j u
    rcases Nat.lt_trichotomy j c.trips.length with hj | rfl | hj
    · rw [List.getElem?_append_left hj]
      simp [hj.ne]
    · simp [eq_comm]
    · rw [List.getElem?_eq_none (by simp; omega), List.getElem?_eq_none hj.le]
      simp [hj.ne']
  refine ⟨fun id j ↦ ?_, fun j u hu resp hresp ↦ ?_, fun j resp hj ↦ ?_⟩
  · simp only [hnew, or_and_right, exists_or, ← h.pending_iff id j]
    by_cases hdraw : id = reqID
    · subst hdraw
      simp [hfree, Trip.inProgress, eq_comm]
    · rw [update_of_ne hdraw]
      simp [Ne.symm hdraw]
  · rcases hnew.mp hu with hu | ⟨-, rfl⟩
    · exact h.answered j u hu resp hresp
    · simp [Trip.holds, TripState.holds] at hresp
  · obtain ⟨u, hu, ha⟩ := h.holding j resp hj
    exact ⟨u, hnew.mpr (.inl hu), ha⟩

/-- The requests stay as they are, and more is read. -/
theorem Routes.same (h : c.Routes) (htrips : c'.trips = c.trips) (hpend : c'.pending = c.pending)
    (hrecv : ∀ x ∈ c.received, x ∈ c'.received) (hreader : ∀ i resp, c'.reader = .holding i resp →
      ∃ t, c.trips[i]? = some t ∧ c'.Answered t.reqID resp) : c'.Routes := by
  refine ⟨fun id j ↦ ?_, fun j u hu resp hresp ↦ ?_, fun j resp hj ↦ ?_⟩
  · rw [hpend, htrips]
    exact h.pending_iff id j
  · rw [htrips] at hu
    exact (h.answered j u hu resp hresp).mono hrecv
  · rw [htrips]
    exact hreader j resp hj

theorem Routes.of_moved (h : c.Routes) (hmoved : c.Moved c') : c'.Routes := by
  cases hmoved with
  | request hfree => exact h.request hfree
  | @trip i t t' _ ht moved =>
    exact h.set ht moved.trips moved.reqID moved.received
      (fun resp hresp ↦ h.answered i t ht resp (moved.holds resp hresp))
      (fun j resp hj ↦ moved.reader ▸ hj) moved.pending
  | @offer i t resp hreader ht =>
    obtain ⟨u, hu, ha⟩ := h.holding i resp hreader
    rw [ht, Option.some_inj] at hu
    subst hu
    refine h.set ht rfl rfl rfl ?_ nofun (.inl ⟨rfl, rfl⟩)
    intro r hr
    -- The response goes into the channel only if it is empty.
    cases hchan : t.chan with
    | none =>
      have hnew : r = resp ∨ r ∈ t.state.holds := by simpa [Trip.holds, hchan] using hr
      rcases hnew with rfl | hr
      · exact ha
      · exact h.answered i t ht r (by simp [Trip.holds, hr])
    | some old =>
      refine h.answered i t ht r ?_
      simpa [Trip.holds, hchan] using hr
  | serve hs moved =>
    refine h.same moved.trips moved.pending (fun x hx ↦ moved.received ▸ hx) fun i resp hi ↦ ?_
    obtain ⟨u, hu, ha⟩ := h.holding i resp (moved.reader ▸ hi)
    exact ⟨u, hu, ha.mono fun x hx ↦ moved.received ▸ hx⟩
  | background moved =>
    refine h.same moved.trips moved.pending (fun x hx ↦ moved.received ▸ hx) fun i resp hi ↦ ?_
    rcases moved.reader with hreader | hreader <;> rw [hreader] at hi
    · obtain ⟨u, hu, ha⟩ := h.holding i resp hi
      exact ⟨u, hu, ha.mono fun x hx ↦ moved.received ▸ hx⟩
    · cases hi

theorem Routes.read (h : c.Routes) {k : ℕ} (hstep : c.read k frame = some c') :
    c'.Routes := by
  rcases read_spec hstep with rfl | hreads
  · exact h.same rfl rfl (fun x hx ↦ hx) nofun
  · have hrecv : ∀ x ∈ c.received, x ∈ c'.received := by simp +contextual [hreads.received]
    refine h.same hreads.trips hreads.pending hrecv fun i resp hi ↦ ?_
    obtain ⟨id, hhead, hdec, hp⟩ := hreads.holding i resp hi
    obtain ⟨u, hu, rfl, -⟩ := (h.pending_iff id i).mp hp
    exact ⟨u, hu, (k, frame.take udpRelayMaxFrame), by simp [hreads.received], hhead, hdec⟩

/-! ## Where datagrams come from -/

/-- Who wrote a datagram, and what it says. -/
def Wrote (c : Conn) (p : Packet) : Prop :=
  match p.origin with
  | .trip i => ∃ t, c.trips[i]? = some t ∧ p.frame = t.frame
  | .serve j => ∃ s resp, c.serves[j]? = some s ∧ s.state = .done resp ∧
      p.frame = udpEncodeResponse s.reqID resp
  | .ping => ∃ id, p.frame = udpEncodeKeepalive id udpRelayTypeKeepalive
  | .pong => ∃ id, p.frame = udpEncodeKeepalive id udpRelayTypePong

/-- What is written and what is served has a reason. -/
structure Provenance (c : Conn) : Prop where
  /-- Every datagram was written by somebody. -/
  sent : ∀ p ∈ c.out, c.Wrote p
  /-- Every request that is served was read. -/
  served : ∀ s ∈ c.serves, ∃ x ∈ c.received, x.1 = s.packet ∧
    header x.2 = some (s.reqID, udpRelayTypeRequest)

/-- What was written stays accounted for while requests keep their frame and the goroutines that
have ended stay as they are. -/
theorem Wrote.mono (h : c.Wrote p) (htrips : ∀ (i : ℕ) (t : Trip), c.trips[i]? = some t →
      ∃ t', c'.trips[i]? = some t' ∧ t'.frame = t.frame)
    (hserves : ∀ (j : ℕ) (s : Serve) (resp : Resp), c.serves[j]? = some s → s.state = .done resp →
      c'.serves[j]? = some s) : c'.Wrote p := by
  unfold Wrote at h ⊢
  split at h
  · obtain ⟨t, ht, hp⟩ := h
    obtain ⟨t', ht', hframe⟩ := htrips _ t ht
    exact ⟨t', ht', hp.trans hframe.symm⟩
  · obtain ⟨s, resp, hs, hdone, hp⟩ := h
    exact ⟨s, resp, hserves _ s resp hs hdone, hdone, hp⟩
  · exact h
  · exact h

/-- A request that moves on keeps its frame. -/
theorem frame_of_set (ht : c.trips[i]? = some t) (htrips : c'.trips = c.trips.set i t')
    (hframe : t'.frame = t.frame) (j : ℕ) (u : Trip) (hu : c.trips[j]? = some u) :
    ∃ u', c'.trips[j]? = some u' ∧ u'.frame = u.frame := by
  have hi : i < c.trips.length := (List.getElem?_eq_some_iff.mp ht).1
  rw [htrips]
  by_cases hj : j = i
  · subst hj
    rw [ht, Option.some_inj] at hu
    exact ⟨t', List.getElem?_set_self hi, hu ▸ hframe⟩
  · exact ⟨u, (List.getElem?_set_ne (Ne.symm hj)).trans hu, rfl⟩

/-- More is written, by somebody. -/
theorem sent_concat (h : ∀ q ∈ c.out, c'.Wrote q) (hout : c'.out = c.out ++ [p]) (hp : c'.Wrote p) :
    ∀ q ∈ c'.out, c'.Wrote q := by
  intro q hq
  rw [hout, List.mem_append, List.mem_singleton] at hq
  rcases hq with hq | rfl
  · exact h q hq
  · exact hp

theorem Provenance.of_moved (h : c.Provenance) (hmoved : c.Moved c') : c'.Provenance := by
  cases hmoved with
  | request =>
    refine ⟨fun p hp ↦ (h.sent p hp).mono (fun i t ht ↦ ⟨t, ?_, rfl⟩) fun j s resp hs _ ↦ hs,
      h.served⟩
    exact (List.getElem?_append_left (List.getElem?_eq_some_iff.mp ht).1).trans ht
  | @trip i t t' _ ht moved =>
    have hold : ∀ p ∈ c.out, c'.Wrote p := fun p hp ↦
      (h.sent p hp).mono (frame_of_set ht moved.trips moved.frame)
        fun j s resp hs _ ↦ moved.serves ▸ hs
    refine ⟨?_, ?_⟩
    · rcases moved.out with ⟨hout, -⟩ | ⟨hout, -⟩
      · rwa [hout]
      · obtain ⟨u, hu, hframe⟩ := frame_of_set ht moved.trips moved.frame i t ht
        exact sent_concat hold hout ⟨u, hu, hframe.symm⟩
    · rw [moved.serves, moved.received]
      exact h.served
  | offer hreader ht =>
    exact ⟨fun p hp ↦ (h.sent p hp).mono (frame_of_set ht rfl rfl) fun j s resp hs _ ↦ hs, h.served⟩
  | @serve j s s' _ hs moved =>
    have hj : j < c.serves.length := (List.getElem?_eq_some_iff.mp hs).1
    have hold : ∀ p ∈ c.out, c'.Wrote p := fun p hp ↦ by
      refine (h.sent p hp).mono (fun i t ht ↦ ⟨t, moved.trips ▸ ht, rfl⟩) fun k u resp hu hdone ↦ ?_
      rw [moved.serves]
      by_cases hk : k = j
      · subst hk
        rw [hs, Option.some_inj] at hu
        exact absurd hdone (hu ▸ moved.running resp)
      · exact (List.getElem?_set_ne (Ne.symm hk)).trans hu
    refine ⟨?_, fun u hu ↦ ?_⟩
    · rcases moved.out with hout | ⟨resp, hdone, hout⟩
      · rwa [hout]
      · refine sent_concat hold hout ⟨s', resp, ?_, hdone, moved.reqID ▸ rfl⟩
        rw [moved.serves, List.getElem?_set_self hj]
    · rw [moved.serves] at hu
      rw [moved.received]
      rcases List.mem_or_eq_of_mem_set hu with hu | rfl
      · exact h.served u hu
      · rw [moved.packet, moved.reqID]
        exact h.served s (List.mem_of_getElem? hs)
  | background moved =>
    have hold : ∀ p ∈ c.out, c'.Wrote p := fun p hp ↦
      (h.sent p hp).mono (fun i t ht ↦ ⟨t, moved.trips ▸ ht, rfl⟩)
        fun j s resp hs _ ↦ moved.serves ▸ hs
    refine ⟨?_, ?_⟩
    · rcases moved.out with hout | ⟨id, hout | hout⟩
      · rwa [hout]
      · exact sent_concat hold hout ⟨id, rfl⟩
      · exact sent_concat hold hout ⟨id, rfl⟩
    · rw [moved.serves, moved.received]
      exact h.served

theorem Provenance.read (h : c.Provenance) {k : ℕ} (hstep : c.read k frame = some c') :
    c'.Provenance := by
  rcases read_spec hstep with rfl | hreads
  · exact ⟨h.sent, h.served⟩
  have hold : ∀ s ∈ c.serves, ∃ x ∈ c'.received, x.1 = s.packet ∧
      header x.2 = some (s.reqID, udpRelayTypeRequest) := fun s hs ↦ by
    obtain ⟨x, hx, hreq⟩ := h.served s hs
    exact ⟨x, by simp [hreads.received, hx], hreq⟩
  refine ⟨?_, ?_⟩
  · rw [hreads.out]
    refine fun p hp ↦ (h.sent p hp).mono (fun i t ht ↦ ⟨t, hreads.trips ▸ ht, rfl⟩)
      fun j s resp hs _ ↦ ?_
    rcases hreads.serves with hserves | ⟨s', hserves, -⟩ <;> rw [hserves]
    · exact hs
    · exact (List.getElem?_append_left (List.getElem?_eq_some_iff.mp hs).1).trans hs
  · rcases hreads.serves with hserves | ⟨s', hserves, hk, -, hhead⟩ <;> rw [hserves]
    · exact hold
    · intro s hs
      rw [List.mem_append, List.mem_singleton] at hs
      rcases hs with hs | rfl
      · exact hold s hs
      · exact ⟨(k, frame.take udpRelayMaxFrame), by simp [hreads.received], hk.symm, hhead⟩

/-- What the header of a datagram says about who wrote it. -/
theorem Wrote.header_cases {typ : UInt8} (h : c.Wrote p)
    (hhead : header (p.frame.take udpRelayMaxFrame) = some (id, typ)) :
    (typ = udpRelayTypeRequest ∧
        ∃ (i : ℕ) (t : Trip), p.origin = .trip i ∧ c.trips[i]? = some t ∧ t.reqID = id) ∨
      (typ = udpRelayTypeResponse ∧
        ∃ (j : ℕ) (s : Serve) (resp : Resp), c.serves[j]? = some s ∧ s.state = .done resp ∧
          s.reqID = id ∧ p.frame = udpEncodeResponse id resp) ∨
      typ = udpRelayTypeKeepalive ∨ typ = udpRelayTypePong := by
  rw [Wrote] at h
  split at h <;> rename_i horigin
  · obtain ⟨t, ht, hp⟩ := h
    rw [hp, Trip.frame, udpEncodeRequest, header_take, Option.some_inj, Prod.mk.injEq] at hhead
    exact .inl ⟨hhead.2.symm, _, t, horigin, ht, hhead.1⟩
  · obtain ⟨s, resp, hs, hdone, hp⟩ := h
    rw [hp, udpEncodeResponse, header_take, Option.some_inj, Prod.mk.injEq] at hhead
    exact .inr (.inl ⟨hhead.2.symm, _, s, resp, hs, hdone, hhead.1, hhead.1 ▸ hp⟩)
  all_goals
    obtain ⟨id, hp⟩ := h
    rw [hp, udpEncodeKeepalive, ← List.append_nil (frameHead _ _), header_take, Option.some_inj,
      Prod.mk.injEq] at hhead
  · exact .inr (.inr (.inl hhead.2.symm))
  · exact .inr (.inr (.inr hhead.2.symm))

/-- A frame that says it is a request was written for one. -/
theorem Wrote.of_request (h : c.Wrote p)
    (hhead : header (p.frame.take udpRelayMaxFrame) = some (id, udpRelayTypeRequest)) :
    ∃ (i : ℕ) (t : Trip), p.origin = .trip i ∧ c.trips[i]? = some t ∧ t.reqID = id := by
  rcases h.header_cases hhead with ⟨-, htrip⟩ | ⟨htyp, -⟩ | htyp | htyp
  · exact htrip
  all_goals exact absurd htyp (by decide)

/-- A frame that says it is a response was written as one. -/
theorem Wrote.of_response (h : c.Wrote p)
    (hhead : header (p.frame.take udpRelayMaxFrame) = some (id, udpRelayTypeResponse)) :
    ∃ (j : ℕ) (s : Serve) (resp : Resp), c.serves[j]? = some s ∧ s.state = .done resp ∧
      s.reqID = id ∧ p.frame = udpEncodeResponse id resp := by
  rcases h.header_cases hhead with ⟨htyp, -⟩ | ⟨-, hserve⟩ | htyp | htyp
  · exact absurd htyp (by decide)
  · exact hserve
  all_goals exact absurd htyp (by decide)

/-! ## Failures in a row -/

/-- The failures since the last success. -/
def streak (log : List Entry) : List Entry := log.rtakeWhile (· = .failure)

/-- Five failures in a row were recorded. -/
def FiveFailures (log : List Entry) : Prop := List.replicate 5 Entry.failure <:+: log

/-- What `failCount` counts. -/
structure Counted (c : Conn) : Prop where
  /-- It is the number of failures since the last success, as an `int32`. -/
  failCount_eq : c.failCount = ((streak c.log).length : ℤ).bmod (2 ^ 32)
  /-- A request is over the threshold after five failures in a row. -/
  marking : ∀ t ∈ c.trips, ∀ err, t.state = .marking err → FiveFailures c.log

theorem fiveFailures_of_streak {log : List Entry} (h : 5 ≤ (streak log).length) :
    FiveFailures log := by
  have hall : streak log = List.replicate (streak log).length .failure :=
    List.eq_replicate_of_mem fun e he ↦ by simpa using List.mem_rtakeWhile_imp he
  have hpre : List.replicate 5 Entry.failure <+: streak log := by
    refine ⟨List.replicate ((streak log).length - 5) .failure, ?_⟩
    rw [List.replicate_append_replicate, Nat.add_sub_cancel' h, ← hall]
  exact hpre.isInfix.trans (List.rtakeWhile_suffix _ _).isInfix

/-- The count crosses the threshold only after five failures in a row. -/
theorem five_le_of_bmod {n : ℕ} (h : udpRelayFailThresh ≤ (n : ℤ).bmod (2 ^ 32)) : 5 ≤ n := by
  by_contra hlt
  rw [Int.bmod_eq_of_le (by omega) (by omega), udpRelayFailThresh] at h
  omega

/-- However the failures are counted, the count stays right, and what is recorded stays recorded. -/
theorem Counts.failCount_eq {crosses : Prop} (hcounts : c.Counts c' crosses)
    (h : c.failCount = ((streak c.log).length : ℤ).bmod (2 ^ 32)) :
    c'.failCount = ((streak c'.log).length : ℤ).bmod (2 ^ 32) ∧ c.log <+: c'.log ∧
      (crosses → FiveFailures c'.log) := by
  cases hcounts with
  | none count log no => exact ⟨by rw [count, log, h], by simp [log], fun hc ↦ absurd hc no⟩
  | failure count log reached =>
    have hstreak : streak c'.log = streak c.log ++ [.failure] := by
      rw [log]
      exact List.rtakeWhile_concat_pos _ _ _ (by simp)
    have hcount : c'.failCount = ((streak c'.log).length : ℤ).bmod (2 ^ 32) := by
      rw [count, addFailure, hstreak, h, List.length_append]
      simp
    refine ⟨hcount, by simp [log, addFailure], fun hc ↦ ?_⟩
    exact fiveFailures_of_streak (five_le_of_bmod (hcount ▸ reached hc))
  | success count log no =>
    have hstreak : streak c'.log = [] := by
      rw [log]
      exact List.rtakeWhile_concat_neg _ _ _ (by simp)
    exact ⟨by rw [count, hstreak]; rfl, by simp [log], fun hc ↦ absurd hc no⟩

theorem Counted.of_moved (h : c.Counted) (hmoved : c.Moved c') : c'.Counted := by
  cases hmoved with
  | request =>
    refine ⟨h.failCount_eq, fun t ht err hmark ↦ ?_⟩
    rw [List.mem_append, List.mem_singleton] at ht
    rcases ht with ht | rfl
    · exact h.marking t ht err hmark
    · cases hmark
  | @trip i t t' _ ht moved =>
    obtain ⟨hcount, hlog, hcross⟩ := moved.counts.failCount_eq h.failCount_eq
    refine ⟨hcount, fun u hu err hmark ↦ ?_⟩
    rw [moved.trips] at hu
    rcases List.mem_or_eq_of_mem_set hu with hu | rfl
    · exact (h.marking u hu err hmark).trans hlog.isInfix
    · exact hcross ⟨err, hmark⟩
  | @offer i t resp hreader ht =>
    refine ⟨h.failCount_eq, fun u hu err hmark ↦ ?_⟩
    rcases List.mem_or_eq_of_mem_set hu with hu | rfl
    · exact h.marking u hu err hmark
    · exact h.marking t (List.mem_of_getElem? ht) err hmark
  | serve hs moved =>
    refine ⟨?_, ?_⟩
    · rw [moved.failCount, moved.log]
      exact h.failCount_eq
    · rw [moved.trips, moved.log]
      exact h.marking
  | background moved =>
    obtain ⟨hcount, hlog, -⟩ := moved.counts.failCount_eq h.failCount_eq
    refine ⟨hcount, fun u hu err hmark ↦ ?_⟩
    rw [moved.trips] at hu
    exact (h.marking u hu err hmark).trans hlog.isInfix

theorem Counted.read (h : c.Counted) {k : ℕ} (hstep : c.read k frame = some c') :
    c'.Counted := by
  rcases read_spec hstep with rfl | hreads
  · exact ⟨h.failCount_eq, h.marking⟩
  · refine ⟨?_, ?_⟩
    · rw [hreads.failCount, hreads.log]
      exact h.failCount_eq
    · rw [hreads.trips, hreads.log]
      exact h.marking

end Conn

/-! ## Two of them -/

namespace Link

variable {l l' : Link}

variable {e : Event}

/-- What a step of either end and what reading keeps is kept. -/
theorem keeps {P : Conn → Prop} (hmoved : ∀ {c c' : Conn}, P c → c.Moved c' → P c')
    (hread : ∀ {c c' : Conn} {k : ℕ} {frame : Bytes}, P c → c.read k frame = some c' → P c')
    (h : ∀ s, P (l s)) (hstep : step l e = some l') (s : Side) : P (l' s) := by
  rcases side_cases hstep s with hs | hs | ⟨k, p, -, hs⟩
  · rw [hs]
    exact h s
  · exact hmoved (h s) hs
  · exact hread (h s) hs

/-- What was read was written by the other side, and cut off at the length of the buffer. -/
def Connected (l : Link) : Prop :=
  ∀ s, ∀ x ∈ (l s).received, ∃ p, (l s.other).out[x.1]? = some p ∧
    x.2 = p.frame.take udpRelayMaxFrame

/-- What was written stays written. -/
theorem out_stays (hstep : step l e = some l') (s : Side) {k : ℕ} {p : Packet}
    (hp : (l s).out[k]? = some p) : (l' s).out[k]? = some p := by
  rcases side_cases hstep s with hs | hs | ⟨k, p, -, hs⟩
  · rwa [hs]
  · obtain ⟨rest, hout⟩ := Conn.out_prefix_of_moved hs
    rw [← hout]
    exact (List.getElem?_append_left (List.getElem?_eq_some_iff.mp hp).1).trans hp
  · rcases Conn.read_spec hs with hout | hreads
    · rwa [hout]
    · rwa [hreads.out]

theorem Connected.step (h : Connected l) (hstep : step l e = some l') :
    Connected l' := by
  intro s x hx
  -- What had been written before the step is written after it.
  suffices hold : ∃ p, (l s.other).out[x.1]? = some p ∧ x.2 = p.frame.take udpRelayMaxFrame by
    obtain ⟨p, hp, hx⟩ := hold
    exact ⟨p, out_stays hstep s.other hp, hx⟩
  rcases side_cases hstep s with hs | hs | ⟨k, p, hp, hs⟩
  · rw [hs] at hx
    exact h s x hx
  · rw [Conn.received_of_moved hs] at hx
    exact h s x hx
  · rcases Conn.read_spec hs with hold | hreads
    · rw [hold] at hx
      exact h s x hx
    · rw [hreads.received, List.mem_append, List.mem_singleton] at hx
      rcases hx with hx | rfl
      · exact h s x hx
      · exact ⟨p, hp, rfl⟩

/-- The four invariants. -/
structure Inv (l : Link) : Prop where
  routes : ∀ s, (l s).Routes
  provenance : ∀ s, (l s).Provenance
  counted : ∀ s, (l s).Counted
  connected : Connected l

theorem inv_new (controlURL : Side → String) : Inv (new controlURL) where
  routes s := ⟨fun id i ↦ by simp [new, Conn.new], nofun, nofun⟩
  provenance s := ⟨nofun, nofun⟩
  counted s := ⟨by simp [new, Conn.new, Conn.streak], nofun⟩
  connected s := nofun

theorem Inv.step (h : Inv l) (hstep : step l e = some l') : Inv l' where
  routes := keeps Conn.Routes.of_moved (fun hc hread ↦ hc.read hread) h.routes hstep
  provenance := keeps Conn.Provenance.of_moved (fun hc hread ↦ hc.read hread) h.provenance hstep
  counted := keeps Conn.Counted.of_moved (fun hc hread ↦ hc.read hread) h.counted hstep
  connected := h.connected.step hstep

/-- `failed` is never reset. -/
theorem failed_stays (hstep : step l e = some l') (s : Side) (h : (l s).failed = true) :
    (l' s).failed = true := by
  rcases side_cases hstep s with hs | hs | ⟨k, p, -, hs⟩
  · rwa [hs]
  · exact Conn.failed_of_moved hs h
  · rcases Conn.read_spec hs with hold | hreads
    · rwa [hold]
    · exact hreads.failed.trans h

/-- A response that was read under an id that is drawn only once was produced by the other side for
the very request that has drawn it. -/
theorem Inv.produced (h : Inv l) {s : Side} {i : ℕ} {t : Trip} {resp : Resp}
    (honce : ((l s).trips.map Trip.reqID).Nodup) (ht : (l s).trips[i]? = some t)
    (ha : (l s).Answered t.reqID resp) :
    ∃ v ∈ (l s.other).serves, ∃ resp', v.state = .done resp' ∧
      (l s).out[v.packet]?.map Packet.origin = some (.trip i) ∧
      udpDecodeResponse ((udpEncodeResponse t.reqID resp').take udpRelayMaxFrame) = some resp := by
  obtain ⟨x, hx, hhead, hdec⟩ := ha
  obtain ⟨p, hp, hcut⟩ := h.connected s x hx
  rw [hcut] at hhead hdec
  obtain ⟨j, v, resp', hv, hdone, hid, hframe⟩ :=
    ((h.provenance s.other).sent p (List.mem_of_getElem? hp)).of_response hhead
  obtain ⟨y, hy, hpacket, hreq⟩ := (h.provenance s.other).served v (List.mem_of_getElem? hv)
  obtain ⟨q, hq, hcut'⟩ := h.connected s.other y hy
  have hother : s.other.other = s := by cases s <;> rfl
  rw [hother, hpacket] at hq
  rw [hcut', hid] at hreq
  obtain ⟨i', t', horigin, ht', hid'⟩ :=
    ((h.provenance s).sent q (List.mem_of_getElem? hq)).of_request hreq
  have hi : i' = i := by
    refine (List.getElem?_inj ?_ honce).mp ?_
    · simpa using (List.getElem?_eq_some_iff.mp ht').1
    · simp [ht, ht', hid']
  refine ⟨v, List.mem_of_getElem? hv, resp', hdone, ?_, hframe ▸ hdec⟩
  rw [hq, Option.map_some, horigin, hi]

/-- What holds of one end of the link. -/
structure Routed (l : Link) (s : Side) : Prop where
  /-- `pending` has one entry for each call in progress, under its id, and no other. -/
  one_entry : ∀ id i, (l s).pending id = some i ↔
    ∃ t, (l s).trips[i]? = some t ∧ t.reqID = id ∧ t.inProgress = true
  /-- The ids of calls in progress are distinct. -/
  distinct : ∀ (i j : ℕ) (t u : Trip), (l s).trips[i]? = some t → (l s).trips[j]? = some u →
    t.inProgress = true → u.inProgress = true → t.reqID = u.reqID → i = j
  /-- A call that returns without an error returns what a response with its own id says. -/
  own : ∀ (i : ℕ) (t : Trip) (resp : Resp), (l s).trips[i]? = some t →
    t.state = .returned (.ok resp) → (l s).Answered t.reqID resp
  /-- If no id is drawn twice, the other side has produced it for this very call. -/
  peer : ((l s).trips.map Trip.reqID).Nodup → ∀ (i : ℕ) (t : Trip) (resp : Resp),
    (l s).trips[i]? = some t → t.state = .returned (.ok resp) →
    ∃ v ∈ (l s.other).serves, ∃ resp', v.state = .done resp' ∧
      (l s).out[v.packet]?.map Packet.origin = some (.trip i) ∧
      udpDecodeResponse ((udpEncodeResponse t.reqID resp').take udpRelayMaxFrame) = some resp ∧
      (resp'.status < 2 ^ 16 → resp'.body.length < 2 ^ 32 → resp = resp')
  /-- `failed` is never reset. -/
  failed_stays : ∀ e l', Link.step l e = some l' → (l s).failed = true → (l' s).failed = true
  /-- A call sets it only after five failures in a row. -/
  failed_after : ∀ i e l', Link.step l (.act s (.trip i e)) = some l' → (l s).failed = false →
    (l' s).failed = true → Conn.FiveFailures (l s).log

end Link

/-- **Responses are routed to their requests**, whatever the interleaving and the network. -/
theorem relay_routing {controlURL : Side → String} {es : List Link.Event} {l : Link}
    (h : Trace.exec Link.step (Link.new controlURL) es = some l) (s : Side) : l.Routed s := by
  have hinv : Link.Inv l := Trace.inv_of_exec Link.Inv.step (Link.inv_new controlURL) h
  have hanswered : ∀ (i : ℕ) (t : Trip) (resp : Resp), (l s).trips[i]? = some t →
      t.state = .returned (.ok resp) → (l s).Answered t.reqID resp := fun i t resp ht hret ↦
    (hinv.routes s).answered i t ht resp (by simp [Trip.holds, TripState.holds, hret])
  refine ⟨(hinv.routes s).pending_iff, ?_, hanswered, ?_, ?_, ?_⟩
  · intro i j t u ht hu hin hin' hid
    exact (hinv.routes s).eq_of_inProgress hu hin' ht hin hid
  · intro honce i t resp ht hret
    obtain ⟨v, hv, resp', hdone, horigin, hdec⟩ :=
      hinv.produced honce ht (hanswered i t resp ht hret)
    exact ⟨v, hv, resp', hdone, horigin, hdec,
      fun hstatus hbody ↦ eq_of_udpDecodeResponse hstatus hbody hdec⟩
  · exact fun e l' hstep ↦ Link.failed_stays hstep s
  · intro i e l' hstep hbefore hafter
    obtain ⟨c, hc, rfl⟩ := Option.map_eq_some_iff.mp hstep
    rw [update_self] at hafter
    obtain ⟨t, ht, hc⟩ := Option.bind_eq_some_iff.mp hc
    obtain ⟨t', hmoved⟩ := Conn.tripStep_spec hc
    rcases hmoved.failed with hf | ⟨-, err, hmark⟩
    · rw [hf, hbefore] at hafter
      cases hafter
    · exact (hinv.counted s).marking t (List.mem_of_getElem? ht) err hmark

/-- One request, its service and its response. -/
def exchange : List Link.Event :=
  [.act .client (.roundTrip 7 [47] [1, 2] [3]), .act .client (.trip 0 (.write none)),
    .deliver .server 0, .act .server (.serve 0 (.forward true)),
    .act .server (.serve 0 (.answer (.ok ⟨200, [4]⟩))), .act .server (.serve 0 (.write none)),
    .deliver .client 0, .act .client (.reader .offer), .act .client (.trip 0 .receive),
    .act .client (.trip 0 .succeed), .act .client (.trip 0 .leave)]

theorem relay_routing_exchange :
    ∃ l, Trace.exec Link.step (Link.new fun _ ↦ "https://control") exchange = some l ∧
      (l .client).trips.map (fun t ↦ (t.inProgress, t.holds)) = [(false, [⟨200, [4]⟩])] ∧
      l.Routed .client := by
  have hrun : (Trace.exec Link.step (Link.new fun _ ↦ "https://control") exchange).map
      (fun l ↦ (l .client).trips.map fun t ↦ (t.inProgress, t.holds)) =
      some [(false, [⟨200, [4]⟩])] := by decide +kernel
  obtain ⟨l, hl, hholds⟩ := Option.map_eq_some_iff.mp hrun
  exact ⟨l, hl, hholds, relay_routing hl .client⟩

end TunnelCat.Relay
