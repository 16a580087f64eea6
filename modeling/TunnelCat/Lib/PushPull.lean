import Mathlib.Logic.Relation
import Mathlib.Order.Basic

/-!
# Push and pull

A way to spread the newest version of something among nodes that do not trust the network.  A node
advertises the version it has; whoever has an older one requests it; the answer carries the version
itself, and is taken in by some procedure of the receiver's own.  Messages may be lost, delayed,
reordered and duplicated, and there may be others among them.

`View` is what the argument needs of the state of such a system: the version each node has, what it
has taken in, all messages that were ever sent, and which of them have been handled.  `Moves` is
what a step must be like, whatever else it does.  `Sound` is the invariant, `Sound.step` says that
such steps keep it, and `Sound.reached` is the result: when every message has been handled, a
version that was advertised to a node has been taken in by it, or it has that version anyway.

What goes round is an order, and the result is transitive in it: `Sound.spread` follows the
advertisements from node to node.
-/

set_option autoImplicit false

namespace PushPull

/-- A message between nodes `ι` about versions `V`. -/
inductive Msg (ι V : Type*) where
  /-- The first node tells the second what it has. -/
  | advert (i j : ι) (v : V)
  /-- The first node asks the second for what it has. -/
  | request (j i : ι)
  /-- The first node sends the second what it has. -/
  | answer (i j : ι) (v : V)
  /-- Anything else. -/
  | other

/-- What is seen of the system. -/
structure View (ι V : Type*) where
  /-- The version a node has. -/
  ver : ι → V
  /-- What a node has taken in, though it may not have it yet. -/
  took : ι → V → Prop
  /-- The messages that were sent. -/
  sent : List (Msg ι V)
  /-- Those that were handled, by their position. -/
  seen : List ℕ

variable {ι V : Type*} [Preorder V] {s t : View ι V}

/-- A message was handled in a step. -/
def Handled (s t : View ι V) : Msg ι V → Prop
  | .advert i j v => v ≤ t.ver j ∨ ∃ k, s.sent.length ≤ k ∧ t.sent[k]? = some (.request j i)
  | .request j i => (∃ v, s.ver i ≤ v ∧ .answer i j v ∈ t.sent) ∨ ∀ v, .advert i j v ∉ s.sent
  | .answer _ j v => t.took j v
  | .other => True

/-- What a step is like. -/
structure Moves (s t : View ι V) : Prop where
  /-- Versions only grow. -/
  grows : ∀ i, s.ver i ≤ t.ver i
  /-- What was taken in stays taken in. -/
  keeps : ∀ i v, s.took i v → t.took i v
  /-- What was sent stays sent. -/
  appends : s.sent <+: t.sent
  /-- A node advertises what it has. -/
  adverts : ∀ i j v, .advert i j v ∈ t.sent → .advert i j v ∈ s.sent ∨ v ≤ t.ver i
  /-- A message that is handled was sent before. -/
  handles : ∀ k ∈ t.seen, k ∈ s.seen ∨ ∃ m, s.sent[k]? = some m ∧ Handled s t m

/-- **The invariant.** -/
structure Sound (s : View ι V) : Prop where
  /-- What was handled was sent. -/
  inRange : ∀ k ∈ s.seen, k < s.sent.length
  /-- A node has what it advertised. -/
  adverts : ∀ i j v, .advert i j v ∈ s.sent → v ≤ s.ver i
  /-- An advertisement that was handled was of no use, or followed by a request. -/
  asked : ∀ k ∈ s.seen, ∀ i j v, s.sent[k]? = some (.advert i j v) →
    v ≤ s.ver j ∨ ∃ l, k < l ∧ s.sent[l]? = some (.request j i)
  /-- A request that was handled was answered with what had been advertised. -/
  answered : ∀ l ∈ s.seen, ∀ i j, s.sent[l]? = some (.request j i) → ∀ k < l, ∀ v,
    s.sent[k]? = some (.advert i j v) → ∃ w, v ≤ w ∧ .answer i j w ∈ s.sent
  /-- An answer that was handled was taken in. -/
  taken : ∀ k ∈ s.seen, ∀ i j v, s.sent[k]? = some (.answer i j v) → s.took j v

/-- Nothing was sent. -/
theorem sound_nil (hsent : s.sent = []) (hseen : s.seen = []) : Sound s := by
  refine ⟨fun k h ↦ ?_, fun i j v h ↦ ?_, fun k h ↦ ?_, fun k h ↦ ?_, fun k h ↦ ?_⟩
  · rw [hseen] at h
    cases h
  · rw [hsent] at h
    cases h
  all_goals
    rw [hseen] at h
    cases h

/-- A message that was sent before is still in its place. -/
theorem Moves.getElem? (h : Moves s t) {k : ℕ} {m : Msg ι V} (hk : s.sent[k]? = some m) :
    t.sent[k]? = some m := by
  obtain ⟨l, hl⟩ := h.appends
  rw [← hl]
  exact (List.getElem?_append_left (List.getElem?_eq_some_iff.mp hk).1).trans hk

/-- And the other way round, if its place was taken before. -/
theorem Moves.getElem?_of_lt (h : Moves s t) {k : ℕ} {m : Msg ι V} (hk : t.sent[k]? = some m)
    (hlt : k < s.sent.length) : s.sent[k]? = some m := by
  obtain ⟨l, hl⟩ := h.appends
  rw [← hl, List.getElem?_append_left hlt] at hk
  exact hk

theorem Sound.step (h : Sound s) (hm : Moves s t) : Sound t := by
  have hlen := hm.appends.length_le
  have hadverts : ∀ i j v, .advert i j v ∈ t.sent → v ≤ t.ver i := fun i j v hmem ↦
    (hm.adverts i j v hmem).elim (fun hold ↦ (h.adverts i j v hold).trans (hm.grows i)) id
  refine ⟨fun k hk ↦ ?_, hadverts, fun k hk i j v hget ↦ ?_,
    fun l hl i j hget k hkl v hadv ↦ ?_, fun k hk i j v hget ↦ ?_⟩
  · rcases hm.handles k hk with hold | ⟨m, hm', -⟩
    · exact Nat.lt_of_lt_of_le (h.inRange k hold) hlen
    · exact Nat.lt_of_lt_of_le (List.getElem?_eq_some_iff.mp hm').1 hlen
  · rcases hm.handles k hk with hold | ⟨m, hm', hhandled⟩
    · rcases h.asked k hold i j v (hm.getElem?_of_lt hget (h.inRange k hold)) with hv | ⟨l, hkl, hl⟩
      · exact .inl (hv.trans (hm.grows j))
      · exact .inr ⟨l, hkl, hm.getElem? hl⟩
    · obtain rfl := Option.some_inj.mp ((hm.getElem? hm').symm.trans hget)
      rcases hhandled with hv | ⟨l, hl, hreq⟩
      · exact .inl hv
      · exact .inr ⟨l, Nat.lt_of_lt_of_le (List.getElem?_eq_some_iff.mp hm').1 hl, hreq⟩
  · rcases hm.handles l hl with hold | ⟨m, hm', hhandled⟩
    · have hlt := h.inRange l hold
      obtain ⟨w, hw, hans⟩ := h.answered l hold i j (hm.getElem?_of_lt hget hlt) k hkl v
        (hm.getElem?_of_lt hadv (Nat.lt_trans hkl hlt))
      exact ⟨w, hw, hm.appends.subset hans⟩
    · obtain rfl := Option.some_inj.mp ((hm.getElem? hm').symm.trans hget)
      have hlt := (List.getElem?_eq_some_iff.mp hm').1
      -- the advertisement was sent before the request was handled
      have hmem := List.mem_of_getElem? (hm.getElem?_of_lt hadv (Nat.lt_trans hkl hlt))
      rcases hhandled with ⟨w, hw, hans⟩ | hnone
      · exact ⟨w, (h.adverts i j v hmem).trans hw, hans⟩
      · exact absurd hmem (hnone v)
  · rcases hm.handles k hk with hold | ⟨m, hm', hhandled⟩
    · exact hm.keeps j v (h.taken k hold i j v (hm.getElem?_of_lt hget (h.inRange k hold)))
    · obtain rfl := Option.some_inj.mp ((hm.getElem? hm').symm.trans hget)
      exact hhandled

/-- Every message of the protocol was handled. -/
def Quiet (s : View ι V) : Prop := ∀ k m, s.sent[k]? = some m → m = .other ∨ k ∈ s.seen

/-- **What is advertised arrives.** -/
theorem Sound.reached (h : Sound s) (hquiet : Quiet s) {i j : ι} {v : V}
    (hadv : .advert i j v ∈ s.sent) : v ≤ s.ver j ∨ ∃ w, v ≤ w ∧ s.took j w := by
  have hhandled : ∀ {k m}, s.sent[k]? = some m → m ≠ .other → k ∈ s.seen := fun hk hm ↦
    (hquiet _ _ hk).resolve_left hm
  obtain ⟨k, hk⟩ := List.mem_iff_getElem?.mp hadv
  rcases h.asked k (hhandled hk nofun) i j v hk with hv | ⟨l, hkl, hl⟩
  · exact .inl hv
  · obtain ⟨w, hw, hans⟩ := h.answered l (hhandled hl nofun) i j hl k hkl v hk
    obtain ⟨n, hn⟩ := List.mem_iff_getElem?.mp hans
    exact .inr ⟨w, hw, h.taken n (hhandled hn nofun) i j w hn⟩

/-- The first node has advertised what it has to the second. -/
def Told (s : View ι V) (i j : ι) : Prop := .advert i j (s.ver i) ∈ s.sent

/-- **What one node has, all have** that are told of it, directly or through others, if they have
what they take in. -/
theorem Sound.spread (h : Sound s) (hquiet : Quiet s) (hstored : ∀ j v, s.took j v → v ≤ s.ver j)
    {i j : ι} (hpath : Relation.ReflTransGen (Told s) i j) : s.ver i ≤ s.ver j := by
  induction hpath with
  | refl => exact le_rfl
  | @tail b c _ htold ih =>
    rcases h.reached hquiet htold with hv | ⟨w, hw, htook⟩
    · exact ih.trans hv
    · exact ih.trans (hw.trans (hstored c w htook))

end PushPull
