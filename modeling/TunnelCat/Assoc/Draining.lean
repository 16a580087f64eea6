import Mathlib.Data.List.Nodup
import TunnelCat.Assoc.Steps

/-!
# Drain loops are started once

A worker that has sent a datagram makes sure that a drain loop is running for the destination.  It
looks for a mark in `drainActive`, and starts a drain loop if there is none; but nothing ever
removes the mark.  So for each destination there is at most one drain loop in the whole session, and
once its poll was cancelled, there is none that runs.

`Marked` is the invariant: a mark and a drain loop for each other, one for each destination.
-/

set_option autoImplicit false

open Trace

namespace TunnelCat.Assoc

theorem Drain.running_iff (d : Drain) :
    d.running = true ↔ d.state ≠ .stopped ∧ d.state ≠ .canceled := by
  unfold Drain.running
  split <;> simp_all

namespace Session

variable {s t : Session}

/-- Each destination has a mark exactly if it has a drain loop, and then it has one. -/
structure Marked (s : Session) : Prop where
  /-- Workers are known under their destination. -/
  workers : ∀ k w, s.tunnelWorkers k = some w → w.dst.key = k
  /-- A mark means that a drain loop was started. -/
  active_iff : ∀ k, s.drainActive k = true ↔ k ∈ s.drains.map fun d ↦ d.dst.key
  /-- No second one was. -/
  once : (s.drains.map fun d ↦ d.dst.key).Nodup
  /-- Unless its poll is cancelled, a drain loop returns only when the session has ended. -/
  live : ∀ d ∈ s.drains, d.state = .stopped → s.stopped = true

theorem KeepsWorkers.keys (hkeep : s.KeepsWorkers t)
    (h : ∀ k w, s.tunnelWorkers k = some w → w.dst.key = k) (k : Key) (w : Worker)
    (hw : t.tunnelWorkers k = some w) : w.dst.key = k := by
  rcases hkeep k w hw with hk | ⟨w', hw', hdst⟩
  · exact hk
  · rw [← hdst]
    exact h k w' hw'

theorem Marked.keeps (h : s.Marked) (hdrains : s.KeepsDrains t) (hworkers : s.KeepsWorkers t) :
    t.Marked := by
  refine ⟨hworkers.keys h.workers, ?_, ?_, ?_⟩
  · rw [hdrains.drains, hdrains.drainActive]
    exact h.active_iff
  · rw [hdrains.drains]
    exact h.once
  · rw [hdrains.drains, hdrains.stopped]
    exact h.live

theorem Marked.startTunnelDrain (h : s.Marked) (dst : Addr) : (s.startTunnelDrain dst).Marked := by
  unfold Session.startTunnelDrain
  split
  · exact h
  · rename_i hfree
    have hnew : dst.key ∉ s.drains.map fun d ↦ d.dst.key := fun hk ↦ hfree ((h.active_iff _).mpr hk)
    refine ⟨h.workers, fun k ↦ ?_, ?_, ?_⟩
    · rw [List.map_append, List.mem_append, ← h.active_iff]
      by_cases hk : k = dst.key
      · simp [hk]
      · simp [hk]
    · rw [List.map_append, List.nodup_append]
      refine ⟨h.once, List.nodup_singleton _, fun k hk j hj ↦ ?_⟩
      rw [List.map_singleton, List.mem_singleton] at hj
      exact fun hkj ↦ hnew (hj ▸ hkj ▸ hk)
    · intro d hd hstate
      rw [List.mem_append, List.mem_singleton] at hd
      rcases hd with hd | rfl
      · exact h.live d hd hstate
      · cases hstate

/-- A drain loop keeps its destination, and returns when the session has ended. -/
theorem Marked.drainStep (h : s.Marked) {i : ℕ} {d : Drain} {e : DrainEvent}
    (hd : s.drains[i]? = some d) (hstep : s.drainStep i d e = some t) : t.Marked := by
  obtain ⟨hbesides, hactive, hstopped, d', hset, hdst, hlive⟩ := drainStep_spec hstep
  have hkeys : (t.drains.map fun d ↦ d.dst.key) = s.drains.map fun d ↦ d.dst.key := by
    obtain ⟨hi, rfl⟩ := List.getElem?_eq_some_iff.mp hd
    have hi' : i < (s.drains.map fun d ↦ d.dst.key).length := by rwa [List.length_map]
    have hown : s.drains[i].dst.key = (s.drains.map fun d ↦ d.dst.key)[i] := by
      rw [List.getElem_map]
    rw [hset, List.map_set, hdst, hown, List.set_getElem_self]
  refine ⟨hbesides.tunnelWorkers ▸ h.workers, ?_, ?_, ?_⟩
  · rw [hactive, hkeys]
    exact h.active_iff
  · rw [hkeys]
    exact h.once
  · intro u hu hstate
    rw [hset] at hu
    rw [hstopped]
    rcases List.mem_or_eq_of_mem_set hu with hu | rfl
    · exact h.live u hu hstate
    · exact hlive hstate

theorem Marked.step {e : Event} (h : s.Marked) (hstep : s.step e = some t) : t.Marked := by
  cases e with
  | relay e =>
    rcases loopStep_spec hstep with ⟨-, hkeeps⟩ | ⟨src, data, lookup, -, rfl⟩
    · exact h.keeps hkeeps.toKeepsDrains hkeeps.workers
    · obtain ⟨hdrains, hworkers⟩ := receive_spec s src (data.take bufferSize) lookup
      exact h.keeps hdrains hworkers
  | worker k e =>
    obtain ⟨w, hw, hstep⟩ := Option.bind_eq_some_iff.mp hstep
    obtain ⟨hworkers, -, ⟨-, hdrains⟩ | ⟨-, hdrains⟩⟩ := workerStep_spec hw hstep
    · exact h.keeps hdrains hworkers
    · have hstart := h.startTunnelDrain w.dst
      refine hstart.keeps hdrains fun j v hv ↦ ?_
      rw [(startTunnelDrain_spec s w.dst).tunnelWorkers]
      exact hworkers j v hv
  | drain i e =>
    obtain ⟨d, hd, hstep⟩ := Option.bind_eq_some_iff.mp hstep
    exact h.drainStep hd hstep
  | fallback i =>
    obtain ⟨f, hf, hstep⟩ := Option.bind_eq_some_iff.mp hstep
    split at hstep <;> cases hstep
    exact h.keeps ⟨rfl, rfl, rfl⟩ .rfl
  | tick d =>
    cases hstep
    exact h.keeps ⟨rfl, rfl, rfl⟩ .rfl
  | stop =>
    cases hstep
    exact ⟨h.workers, h.active_iff, h.once, fun _ _ _ ↦ rfl⟩

theorem marked_new (tunnelOnly altDNSRouting blockQUIC : Bool) (now : ℤ) :
    (new tunnelOnly altDNSRouting blockQUIC now).Marked where
  workers := nofun
  active_iff k := by simp [new]
  once := List.nodup_nil
  live := nofun

/-- A drain loop runs for the destination. -/
def Drains (s : Session) (k : Key) : Prop := ∃ d ∈ s.drains, d.dst.key = k ∧ d.running = true

/-- No poll for the destination was cancelled. -/
def Uncanceled (s : Session) (k : Key) : Prop := ∀ d ∈ s.drains, d.dst.key = k → d.state ≠ .canceled

/-- There is one drain loop for a destination with a mark, and it runs unless it was cancelled. -/
theorem Marked.drains_iff (h : s.Marked) (hlive : s.stopped = false) {k : Key}
    (hk : s.drainActive k = true) : s.Drains k ↔ s.Uncanceled k := by
  refine ⟨fun hrun d hd hdk ↦ ?_, fun hun ↦ ?_⟩
  · obtain ⟨u, hu, huk, hrun⟩ := hrun
    have hsame : d = u := List.inj_on_of_nodup_map h.once hd hu (hdk.trans huk.symm)
    exact ((Drain.running_iff d).mp (hsame ▸ hrun)).2
  · obtain ⟨d, hd, hdk⟩ := List.mem_map.mp ((h.active_iff k).mp hk)
    refine ⟨d, hd, hdk, (Drain.running_iff d).mpr ⟨fun hstopped ↦ ?_, hun d hd hdk⟩⟩
    rw [h.live d hd hstopped] at hlive
    cases hlive

/-- Whether a drain loop was cancelled is not changed by starting one. -/
theorem uncanceled_startTunnelDrain (dst : Addr) (k : Key) :
    (s.startTunnelDrain dst).Uncanceled k ↔ s.Uncanceled k := by
  unfold startTunnelDrain
  split
  · exact Iff.rfl
  · refine ⟨fun h d hd ↦ h d (List.mem_append_left _ hd), fun h d hd hdk ↦ ?_⟩
    rw [List.mem_append, List.mem_singleton] at hd
    rcases hd with hd | rfl
    · exact h d hd hdk
    · nofun

theorem drainActive_startTunnelDrain (dst : Addr) :
    (s.startTunnelDrain dst).drainActive dst.key = true := by
  unfold startTunnelDrain
  split
  · rename_i hactive
    exact hactive
  · exact Function.update_self ..

end Session

/-- **After a send a drain loop runs exactly if none was cancelled before.** -/
theorem drains_after_send_iff {tunnelOnly altDNSRouting blockQUIC : Bool} {now : ℤ}
    {es : List Session.Event} {s t : Session} {k : Key}
    (h : exec Session.step (.new tunnelOnly altDNSRouting blockQUIC now) es = some s)
    (hsend : s.step (.worker k .start) = some t) (hlive : t.stopped = false) :
    t.Drains k ↔ s.Uncanceled k := by
  have hs : s.Marked := Trace.inv_of_exec Session.Marked.step (Session.marked_new ..) h
  have ht : t.Marked := hs.step hsend
  obtain ⟨w, hw, hstep⟩ := Option.bind_eq_some_iff.mp hsend
  have hk : w.dst.key = k := hs.workers k w hw
  obtain ⟨-, -, ⟨hne, -⟩ | ⟨-, hdrains⟩⟩ := Session.workerStep_spec hw hstep
  · exact absurd rfl hne
  have hactive : t.drainActive k = true := by
    rw [hdrains.drainActive, ← hk]
    exact Session.drainActive_startTunnelDrain w.dst
  calc t.Drains k ↔ t.Uncanceled k := ht.drains_iff hlive hactive
    _ ↔ (s.startTunnelDrain w.dst).Uncanceled k := by
      rw [Session.Uncanceled, hdrains.drains, Session.Uncanceled]
    _ ↔ s.Uncanceled k := Session.uncanceled_startTunnelDrain w.dst k

/-- A datagram of the client is sent to `9.9.9.9:7000` through the tunnel, up to the point where the
drain loop is started. -/
def sendThroughTunnel : List Session.Event :=
  [.relay .again,
    .relay (.datagram ⟨[127, 0, 0, 1], 5000⟩ [0, 0, 0, 1, 9, 9, 9, 9, 27, 88, 1] fun _ ↦ .ok []),
    .relay .forward, .relay (.route false), .relay .findQueue, .relay .enqueue,
    .worker ([9, 9, 9, 9], 7000) .take, .worker ([9, 9, 9, 9], 7000) (.posted (some []))]

theorem drains_after_send_iff_first :
    ∃ s t, exec Session.step (.new false false false 0) sendThroughTunnel = some s ∧
      s.step (.worker ([9, 9, 9, 9], 7000) .start) = some t ∧ t.stopped = false ∧
      t.Drains ([9, 9, 9, 9], 7000) := by
  have hrun : (exec Session.step (.new false false false 0) sendThroughTunnel).bind
      (fun s ↦ (s.step (.worker ([9, 9, 9, 9], 7000) .start)).map fun t ↦ (s.drains, t.stopped)) =
      some ([], false) := by decide +kernel
  obtain ⟨s, hs, hrun⟩ := Option.bind_eq_some_iff.mp hrun
  obtain ⟨t, ht, hfacts⟩ := Option.map_eq_some_iff.mp hrun
  rw [Prod.mk.injEq] at hfacts
  refine ⟨s, t, hs, ht, hfacts.2, (drains_after_send_iff hs ht hfacts.2).mpr ?_⟩
  rw [Session.Uncanceled, hfacts.1]
  exact nofun

/-- The poll of the drain loop is cancelled, and another datagram is sent. -/
def canceledThenSend : List Session.Event :=
  sendThroughTunnel ++ [.worker ([9, 9, 9, 9], 7000) .start, .worker ([9, 9, 9, 9], 7000) .record,
    .drain 0 (.pick true), .drain 0 (.polled (.error .canceled))] ++ sendThroughTunnel

/-- The session has not ended and the send has succeeded, but no drain loop runs. -/
theorem drain_stays_dead :
    ∃ s t, exec Session.step (.new false false false 0) canceledThenSend = some s ∧
      s.step (.worker ([9, 9, 9, 9], 7000) .start) = some t ∧ t.stopped = false ∧
      ¬t.Drains ([9, 9, 9, 9], 7000) := by
  have hrun : (exec Session.step (.new false false false 0) canceledThenSend).bind
      (fun s ↦ (s.step (.worker ([9, 9, 9, 9], 7000) .start)).map fun t ↦ (t.drains, t.stopped)) =
      some ([⟨⟨[9, 9, 9, 9], 7000⟩, .canceled⟩], false) := by decide +kernel
  obtain ⟨s, hs, hrun⟩ := Option.bind_eq_some_iff.mp hrun
  obtain ⟨t, ht, hfacts⟩ := Option.map_eq_some_iff.mp hrun
  rw [Prod.mk.injEq] at hfacts
  refine ⟨s, t, hs, ht, hfacts.2, ?_⟩
  rw [Session.Drains, hfacts.1]
  simp [Drain.running]

end TunnelCat.Assoc
