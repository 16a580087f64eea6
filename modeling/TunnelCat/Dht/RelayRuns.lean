import Mathlib.Algebra.Order.Archimedean.Basic
import Mathlib.Data.Int.ConditionallyCompleteOrder
import Mathlib.Data.List.MinMax
import TunnelCat.Dht.Addressable

/-!
# Relay entries over time

`RelayStore.store` is called for every entry that is announced, listed by another node or read back
from the file of saved relays.  The calls come with a clock reading each, and the entries are
whatever the sender wrote into them, time stamps included.

Three things are said about any list of such calls, starting from an empty store.

* A call returns no error exactly if the signature verifies and clock and time stamp are at most
  `relayTTL` apart.  The difference is taken in `int64`, but it cannot wrap around into the window
  while the clock is below `2 ^ 62` (`accepts_iff`).
* The entry kept for a `NodeID` is `List.argmax` of the time stamp over the entries accepted for it,
  in the order in which they came: the newest one, and the first of several (`lookup_after`).
* Entries are kept by the *text* of their `NodeID`, but they are verified with the key that it
  encodes, and the digits `a` to `f` can be written in two ways.  So a key has one entry only if its
  holder does not use another spelling (`OneSpelling`).
-/

set_option autoImplicit false

namespace TunnelCat.Dht

namespace RelayStore

/-- A call of `store`. -/
structure Call where
  /-- The clock reading. -/
  now : Int64
  /-- The entry. -/
  entry : RelayEntry
  deriving DecidableEq

/-- The store after some calls. -/
def after (L : SigLib) (s : RelayStore) (calls : List Call) : RelayStore :=
  calls.foldl (fun s c ↦ (s.store L c.now c.entry).2) s

/-- The entries of the calls that returned no error. -/
def accepted (L : SigLib) : RelayStore → List Call → List RelayEntry
  | _, [] => []
  | s, c :: cs =>
    let (out, s') := s.store L c.now c.entry
    if out = .ok () then c.entry :: accepted L s' cs else accepted L s' cs

/-- The two tests that `store` makes. -/
def Accepts (L : SigLib) (c : Call) : Prop :=
  verifyRelayEntry L c.entry = .ok () ∧
    ¬(c.now - c.entry.ts > relayTTL ∨ c.now - c.entry.ts < -relayTTL)

instance (L : SigLib) (c : Call) : Decidable (Accepts L c) :=
  inferInstanceAs (Decidable (_ ∧ ¬(_ ∨ _)))

/-! ## The clock -/

theorem toInt_relayTTL : relayTTL.toInt = 120 := by decide

/-- The age of an entry does not wrap around into the window. -/
theorem age_le_iff {now ts : Int64} (h₀ : 0 ≤ now.toInt) (h : now.toInt < 2 ^ 62) :
    (-relayTTL ≤ now - ts ∧ now - ts ≤ relayTTL) ↔ |now.toInt - ts.toInt| ≤ 120 := by
  have hlo := ts.le_toInt
  have hhi := ts.toInt_lt
  rw [Int64.le_iff_toInt_le, Int64.le_iff_toInt_le, Int64.toInt_sub, abs_le,
    show (-relayTTL).toInt = -120 by decide, toInt_relayTTL, Int.bmod_def]
  split <;> omega

/-- **When `store` accepts**: the signature verifies, and clock and time stamp are at most
`relayTTL` apart. -/
theorem accepts_iff (L : SigLib) {c : Call} (h₀ : 0 ≤ c.now.toInt) (h : c.now.toInt < 2 ^ 62) :
    Accepts L c ↔
      verifyRelayEntry L c.entry = .ok () ∧ |c.now.toInt - c.entry.ts.toInt| ≤ 120 := by
  rw [Accepts, ← age_le_iff h₀ h, not_or, Int64.not_lt, Int64.not_lt, and_comm (a := _ ≤ relayTTL)]

/-! ## One call -/

variable {L : SigLib} {s : RelayStore} {c : Call}

theorem fst_store : (s.store L c.now c.entry).1 = .ok () ↔ Accepts L c := by
  rw [store, Accepts]
  split
  · rename_i h; simp [h]
  · rename_i h; simp [h]
  · rename_i h
    dsimp only
    split
    · rename_i hage; simp [hage]
    · rename_i hage
      refine iff_of_true ?_ ⟨h, hage⟩
      repeat' split
      all_goals rfl

theorem store_of_not_accepts (h : ¬Accepts L c) : (s.store L c.now c.entry).2 = s := by
  rw [store]
  split
  · rfl
  · rfl
  · rename_i hv
    exact congrArg Prod.snd (if_pos (not_not.mp fun hage ↦ h ⟨hv, hage⟩))

theorem store_of_accepts (h : Accepts L c) : (s.store L c.now c.entry).2 =
    if ∃ x, s.lookup c.entry.nodeID = some x ∧ c.entry.ts ≤ x.ts then s else s.assign c.entry := by
  rw [store, h.1]
  dsimp only
  rw [if_neg h.2]
  cases s.lookup c.entry.nodeID with
  | none => simp
  | some x => by_cases hx : c.entry.ts ≤ x.ts <;> simp [hx]

/-! ## What is kept -/

theorem mem_assign (hs : (s.map RelayEntry.nodeID).Nodup) (e x : RelayEntry) :
    x ∈ s.assign e ↔ x = e ∨ (x ∈ s ∧ x.nodeID ≠ e.nodeID) := by
  rw [assign]
  split
  · rename_i he
    obtain ⟨y, hy, hye⟩ := List.mem_map.mp he
    rw [Keyed.mem_updateFirst hs, or_comm]
    refine or_congr_left ⟨?_, ?_⟩
    · rintro ⟨a, -, -, ha⟩
      exact (Option.some.inj ha).symm
    · rintro rfl
      exact ⟨y, hy, hye, rfl⟩
  · rename_i he
    rw [List.mem_append, List.mem_singleton, or_comm]
    refine or_congr_right (iff_self_and.mpr fun hx hxe ↦ he ?_)
    exact List.mem_map.mpr ⟨x, hx, hxe⟩

theorem nodup_assign (hs : (s.map RelayEntry.nodeID).Nodup) (e : RelayEntry) :
    ((s.assign e).map RelayEntry.nodeID).Nodup := by
  rw [assign]
  split
  · refine Keyed.nodup_updateFirst (fun _ hb ↦ ?_) hs
    rw [← Option.some.inj hb]
  · rename_i he
    rw [List.map_append, List.map_singleton]
    exact List.nodup_append_comm.mp (List.nodup_cons.mpr ⟨he, hs⟩)

theorem nodup_store (hs : (s.map RelayEntry.nodeID).Nodup) :
    ((s.store L c.now c.entry).2.map RelayEntry.nodeID).Nodup := by
  by_cases h : Accepts L c
  · rw [store_of_accepts h]
    split
    · exact hs
    · exact nodup_assign hs _
  · rw [store_of_not_accepts h]
    exact hs

theorem after_concat (s : RelayStore) (calls : List Call) (c : Call) :
    s.after L (calls ++ [c]) = ((s.after L calls).store L c.now c.entry).2 := by
  rw [after, List.foldl_append]
  rfl

theorem nodup_after (calls : List Call) :
    ((after L [] calls).map RelayEntry.nodeID).Nodup := by
  induction calls using List.reverseRecOn with
  | nil => exact List.nodup_nil
  | append_singleton calls c ih =>
    rw [after_concat]
    exact nodup_store ih

/-- No `NodeID` is kept twice, so the entries are those that `lookup` finds. -/
theorem mem_iff_lookup (hs : (s.map RelayEntry.nodeID).Nodup) (x : RelayEntry) :
    x ∈ s ↔ s.lookup x.nodeID = some x := by
  refine ⟨fun hx ↦ ?_, fun hx ↦ List.mem_of_find?_eq_some hx⟩
  obtain ⟨y, hy⟩ : ∃ y, s.lookup x.nodeID = some y :=
    Option.isSome_iff_exists.mp (List.find?_isSome.mpr ⟨x, hx, by simp⟩)
  have hyx : y.nodeID = x.nodeID := by simpa using List.find?_some hy
  rw [hy, List.inj_on_of_nodup_map hs (List.mem_of_find?_eq_some hy) hx hyx]

variable {x : RelayEntry} {calls : List Call}

theorem lookup_eq_some (hs : (s.map RelayEntry.nodeID).Nodup) {id : String} :
    s.lookup id = some x ↔ x ∈ s ∧ x.nodeID = id := by
  refine ⟨fun h ↦ ?_, fun ⟨hx, hid⟩ ↦ hid ▸ (mem_iff_lookup hs x).mp hx⟩
  exact ⟨List.mem_of_find?_eq_some h, by simpa using List.find?_some h⟩

theorem lookup_assign (hs : (s.map RelayEntry.nodeID).Nodup) (e : RelayEntry) (id : String) :
    (s.assign e).lookup id = if e.nodeID = id then some e else s.lookup id := by
  ext x
  rw [lookup_eq_some (nodup_assign hs e), mem_assign hs]
  split
  · rename_i he
    rw [Option.some_inj]
    refine ⟨fun ⟨hx, hid⟩ ↦ hx.elim Eq.symm fun hx ↦ absurd (hid.trans he.symm) hx.2, ?_⟩
    exact fun hx ↦ hx ▸ ⟨Or.inl rfl, he⟩
  · rename_i he
    rw [lookup_eq_some hs]
    refine ⟨fun ⟨hx, hid⟩ ↦ ⟨?_, hid⟩, fun ⟨hx, hid⟩ ↦ ⟨Or.inr ⟨hx, ?_⟩, hid⟩⟩
    · exact (hx.resolve_left fun hx ↦ he (hx ▸ hid)).1
    · exact fun hxe ↦ he (hxe.symm.trans hid)

/-- The entry that is kept after another one was accepted for its `NodeID`. -/
theorem lookup_store (hs : (s.map RelayEntry.nodeID).Nodup) (h : Accepts L c) (id : String) :
    (s.store L c.now c.entry).2.lookup id =
      if c.entry.nodeID = id then
        (s.lookup id).elim (some c.entry) fun x ↦ some (if x.ts < c.entry.ts then c.entry else x)
      else s.lookup id := by
  rw [store_of_accepts h]
  split
  · rename_i hx
    obtain ⟨x, hx, hts⟩ := hx
    split
    · rename_i he
      rw [← he, hx, Option.elim_some, if_neg (Int64.not_lt.mpr hts)]
    · rfl
  · rename_i hx
    rw [lookup_assign hs]
    split
    · rename_i he
      cases hy : s.lookup id with
      | none => rfl
      | some y =>
        have hts : ¬c.entry.ts ≤ y.ts := fun hts ↦ hx ⟨y, he ▸ hy, hts⟩
        rw [Option.elim_some, if_pos (Int64.not_le.mp hts)]
    · rfl

theorem accepted_eq (s : RelayStore) (calls : List Call) :
    accepted L s calls = (calls.filter (Accepts L ·)).map Call.entry := by
  induction calls generalizing s with
  | nil => rfl
  | cons c cs ih =>
    rw [accepted]
    dsimp only
    by_cases h : Accepts L c
    · rw [if_pos (fst_store.mpr h), ih, List.filter_cons_of_pos (by simpa using h), List.map_cons]
    · rw [if_neg fun hok ↦ h (fst_store.mp hok), ih, List.filter_cons_of_neg (by simpa using h)]

/-- **Newest wins**: the entry kept for a `NodeID` is the first of those with the largest time
stamp among the entries accepted for it. -/
theorem lookup_after (calls : List Call) (id : String) :
    (after L [] calls).lookup id =
      ((accepted L [] calls).filter (·.nodeID = id)).argmax (·.ts.toInt) := by
  induction calls using List.reverseRecOn with
  | nil => rfl
  | append_singleton calls c ih =>
    rw [after_concat, accepted_eq, List.filter_append, List.map_append, List.filter_append,
      ← accepted_eq []]
    by_cases h : Accepts L c
    · rw [lookup_store (nodup_after calls) h, List.filter_cons_of_pos (by simpa using h),
        List.filter_nil, List.map_singleton]
      by_cases hid : c.entry.nodeID = id
      · rw [if_pos hid, List.filter_cons_of_pos (by simpa using hid), List.filter_nil,
          List.argmax_concat, ← ih]
        cases (after L [] calls).lookup id with
        | none => rfl
        | some x => simp only [Option.elim_some, Int64.lt_iff_toInt_lt, apply_ite some]
      · rw [if_neg hid, ih, List.filter_cons_of_neg (by simpa using hid), List.filter_nil,
          List.append_nil]
    · rw [store_of_not_accepts h, ih, List.filter_cons_of_neg (by simpa using h), List.filter_nil,
        List.map_nil, List.filter_nil, List.append_nil]

theorem accepts_of_mem_after (hx : x ∈ after L [] calls) :
    ∃ c ∈ calls, Accepts L c ∧ c.entry = x := by
  rw [mem_iff_lookup (nodup_after calls), lookup_after] at hx
  have hacc := List.mem_of_mem_filter (List.argmax_mem hx)
  rw [accepted_eq] at hacc
  obtain ⟨c, hc, hcx⟩ := List.mem_map.mp hacc
  rw [List.mem_filter, decide_eq_true_eq] at hc
  exact ⟨c, hc.1, hc.2, hcx⟩

/-- The time stamp kept for a `NodeID` never decreases. -/
theorem ts_le_of_lookup_after {pre : List Call} {id : String} {e : RelayEntry}
    (h : (after L [] pre).lookup id = some e) (post : List Call) :
    ∃ e', (after L [] (pre ++ post)).lookup id = some e' ∧ e.ts ≤ e'.ts := by
  rw [lookup_after] at h ⊢
  have he : e ∈ (accepted L [] (pre ++ post)).filter (·.nodeID = id) := by
    rw [accepted_eq, List.filter_append, List.map_append, List.filter_append, ← accepted_eq []]
    exact List.mem_append_left _ (List.argmax_mem h)
  obtain ⟨e', he'⟩ : ∃ e', ((accepted L [] (pre ++ post)).filter (·.nodeID = id)).argmax
      (·.ts.toInt) = some e' := by
    refine Option.ne_none_iff_exists'.mp fun hnone ↦ ?_
    rw [List.argmax_eq_none] at hnone
    exact absurd (hnone ▸ he) List.not_mem_nil
  refine ⟨e', he', ?_⟩
  exact Int64.le_iff_toInt_le.mpr
    (List.le_of_mem_argmax (f := fun x : RelayEntry ↦ x.ts.toInt) he he')

/-- All calls are made at times from `0` to `2 ^ 62`. -/
def Timed (calls : List Call) : Prop := ∀ c ∈ calls, 0 ≤ c.now.toInt ∧ c.now.toInt < 2 ^ 62

/-- The entries that are given out are those kept whose age is at most `relayTTL`. -/
theorem mem_all_after (hc : Timed calls) {t : Int64} (h₀ : 0 ≤ t.toInt) (ht : t.toInt < 2 ^ 62)
    (x : RelayEntry) :
    x ∈ all t (after L [] calls) ↔
      (after L [] calls).lookup x.nodeID = some x ∧ t.toInt - x.ts.toInt ≤ 120 := by
  rw [all, List.mem_filter, decide_eq_true_eq, ← mem_iff_lookup (nodup_after calls)]
  refine and_congr_right fun hx ↦ ?_
  obtain ⟨c, hmem, hacc, rfl⟩ := accepts_of_mem_after hx
  -- the entry was fresh once, so its time stamp is not far below zero and nothing wraps around
  have hfresh := abs_le.mp ((accepts_iff L (hc c hmem).1 (hc c hmem).2).mp hacc).2
  have hnow := hc c hmem
  rw [Int64.le_iff_toInt_le, Int64.toInt_sub, toInt_relayTTL, Int.bmod_def]
  split <;> omega

/-- **Freshness and newest-wins**, for any list of calls whose clock readings are below `2 ^ 62`.
The readings need not be in order, and neither need the one of `all`. -/
theorem newest_after (L : SigLib) {calls : List Call} (hcalls : Timed calls) :
    (∀ pre c post, calls = pre ++ c :: post →
      (((after L [] pre).store L c.now c.entry).1 = .ok () ↔
        verifyRelayEntry L c.entry = .ok () ∧ |c.now.toInt - c.entry.ts.toInt| ≤ 120)) ∧
    (∀ id, (after L [] calls).lookup id =
      ((accepted L [] calls).filter (·.nodeID = id)).argmax (·.ts.toInt)) ∧
    (∀ pre post, calls = pre ++ post → ∀ id e, (after L [] pre).lookup id = some e →
      ∃ e', (after L [] calls).lookup id = some e' ∧ e.ts ≤ e'.ts) ∧
    ∀ t : Int64, 0 ≤ t.toInt → t.toInt < 2 ^ 62 →
      (all t (after L [] calls)).Nodup ∧
      ∀ e, e ∈ all t (after L [] calls) ↔
        (after L [] calls).lookup e.nodeID = some e ∧ t.toInt - e.ts.toInt ≤ 120 := by
  refine ⟨fun pre c post h ↦ ?_, lookup_after calls, fun pre post h id e he ↦ ?_,
    fun t h₀ ht ↦ ⟨?_, mem_all_after hcalls h₀ ht⟩⟩
  · have hc := hcalls c (by simp [h])
    rw [fst_store, accepts_iff L hc.1 hc.2]
  · rw [h]
    exact ts_le_of_lookup_after he post
  · exact (List.Nodup.of_map _ (nodup_after calls)).filter _

/-- A library in which every signature verifies. -/
def openLib : SigLib where
  verify _ _ _ := true
  base64Decode _ := some (List.replicate 64 0)
  hexError _ := ""

/-- An entry of a key, written with the digits given. -/
def entryOf (digit : Char) (ts : Int64) : RelayEntry :=
  ⟨String.ofList (List.replicate 64 digit), "192.0.2.1:4000", "SE", ts, ""⟩

/-- An entry, a replay of an older one, a newer one, and one that is too old. -/
def demoCalls : List Call :=
  [⟨1000, entryOf 'a' 990⟩, ⟨1000, entryOf 'a' 980⟩, ⟨1010, entryOf 'a' 1005⟩,
    ⟨1010, entryOf 'b' 800⟩]

theorem newest_after_demo : Timed demoCalls ∧
    (after openLib [] demoCalls).lookup (entryOf 'a' 0).nodeID =
      ((accepted openLib [] demoCalls).filter (·.nodeID = (entryOf 'a' 0).nodeID)).argmax
        (·.ts.toInt) ∧
    after openLib [] demoCalls = [entryOf 'a' 1005] :=
  have hcalls : Timed demoCalls := by unfold Timed; decide +kernel
  ⟨hcalls, (newest_after openLib hcalls).2.1 _, by decide +kernel⟩

/-! ## One entry for each key -/

/-- The signature of an entry verifies under a public key. -/
def VerifiesUnder (L : SigLib) (pub : Bytes) (e : RelayEntry) : Prop :=
  verifyRelayEntry L e = .ok () ∧ Bytes.hexDecode e.nodeID = some pub

/-- No two entries verify under one key. -/
def OnePerKey (L : SigLib) (s : RelayStore) : Prop :=
  ∀ x ∈ s, ∀ y ∈ s, ∀ pub, VerifiesUnder L pub x → VerifiesUnder L pub y → x = y

/-- An entry that is accepted spells its key as the entry in the store that has the same key. -/
def OneSpelling (L : SigLib) (s : RelayStore) (c : Call) : Prop :=
  Accepts L c → ∀ x ∈ s, Bytes.hexDecode x.nodeID = Bytes.hexDecode c.entry.nodeID →
    x.nodeID = c.entry.nodeID

theorem exists_hexDecode {e : RelayEntry} (h : verifyRelayEntry L e = .ok ()) :
    ∃ pub, Bytes.hexDecode e.nodeID = some pub := by
  rw [verifyRelayEntry] at h
  split at h
  · exact absurd h (by simp)
  · split at h
    · exact absurd h (by simp)
    · rename_i pub hpub
      exact ⟨pub, hpub⟩

/-- With verified entries only, it is the decoded keys that must differ. -/
theorem onePerKey_iff (hs : ∀ x ∈ s, verifyRelayEntry L x = .ok ()) :
    OnePerKey L s ↔
      ∀ x ∈ s, ∀ y ∈ s, Bytes.hexDecode x.nodeID = Bytes.hexDecode y.nodeID → x = y := by
  refine ⟨fun h x hx y hy hxy ↦ ?_, fun h x hx y hy pub hpx hpy ↦ ?_⟩
  · obtain ⟨pub, hpub⟩ := exists_hexDecode (hs x hx)
    exact h x hx y hy pub ⟨hs x hx, hpub⟩ ⟨hs y hy, hxy ▸ hpub⟩
  · exact h x hx y hy (hpx.2.trans hpy.2.symm)

theorem verify_of_mem_after (hx : x ∈ after L [] calls) :
    verifyRelayEntry L x = .ok () := by
  obtain ⟨c, -, hacc, rfl⟩ := accepts_of_mem_after hx
  exact hacc.1

/-- A new entry for a key, or a newer one in the same spelling, is the only way to keep the keys
apart. -/
theorem distinct_assign_iff (hs : (s.map RelayEntry.nodeID).Nodup) (e : RelayEntry) :
    (∀ x ∈ s.assign e, ∀ y ∈ s.assign e,
        Bytes.hexDecode x.nodeID = Bytes.hexDecode y.nodeID → x = y) ↔
      (∀ x ∈ s, ∀ y ∈ s, Bytes.hexDecode x.nodeID = Bytes.hexDecode y.nodeID → x = y) ∧
        ∀ x ∈ s, Bytes.hexDecode x.nodeID = Bytes.hexDecode e.nodeID → x.nodeID = e.nodeID := by
  simp only [mem_assign hs]
  refine ⟨fun h ↦ ?_, fun ⟨h, he⟩ ↦ ?_⟩
  · have hspell : ∀ x ∈ s, Bytes.hexDecode x.nodeID = Bytes.hexDecode e.nodeID →
        x.nodeID = e.nodeID := by
      intro x hx hxe
      by_contra hne
      exact hne (congrArg RelayEntry.nodeID (h x (Or.inr ⟨hx, hne⟩) e (Or.inl rfl) hxe))
    refine ⟨fun x hx y hy hxy ↦ ?_, hspell⟩
    by_cases hxe : x.nodeID = e.nodeID
    · have hye := hspell y hy (hxy ▸ congrArg Bytes.hexDecode hxe)
      exact List.inj_on_of_nodup_map hs hx hy (hxe.trans hye.symm)
    · have hye : y.nodeID ≠ e.nodeID := fun hye ↦
        hxe (hspell x hx (hxy.trans (congrArg Bytes.hexDecode hye)))
      exact h x (Or.inr ⟨hx, hxe⟩) y (Or.inr ⟨hy, hye⟩) hxy
  · rintro x (rfl | ⟨hx, hxe⟩) y (rfl | ⟨hy, hye⟩) hxy
    · rfl
    · exact absurd (he y hy hxy.symm) hye
    · exact absurd (he x hx hxy) hxe
    · exact h x hx y hy hxy

/-- What one call does: it leaves one entry for each key if there was one for each and the new entry
is no other spelling of a key. -/
theorem distinct_store_iff (hs : (s.map RelayEntry.nodeID).Nodup) :
    (∀ x ∈ (s.store L c.now c.entry).2, ∀ y ∈ (s.store L c.now c.entry).2,
        Bytes.hexDecode x.nodeID = Bytes.hexDecode y.nodeID → x = y) ↔
      (∀ x ∈ s, ∀ y ∈ s, Bytes.hexDecode x.nodeID = Bytes.hexDecode y.nodeID → x = y) ∧
        OneSpelling L s c := by
  by_cases h : Accepts L c
  · rw [store_of_accepts h, OneSpelling, forall_prop_of_true h]
    split
    · rename_i hx
      obtain ⟨x, hx, -⟩ := hx
      obtain ⟨hx, hid⟩ := (lookup_eq_some hs).mp hx
      -- the entry that stays has the spelling of the new one already
      refine iff_self_and.mpr fun hd y hy hye ↦ ?_
      rw [hd y hy x hx (hid ▸ hye), hid]
    · exact distinct_assign_iff hs c.entry
  · rw [store_of_not_accepts h]
    exact iff_self_and.mpr fun _ hacc ↦ absurd hacc h

/-- **One entry for each key**: a store has one exactly if no accepted entry was another spelling of
a key that was in the store when it came. -/
theorem onePerKey_after_iff (L : SigLib) (calls : List Call) :
    OnePerKey L (after L [] calls) ↔
      ∀ pre c post, calls = pre ++ c :: post → OneSpelling L (after L [] pre) c := by
  rw [onePerKey_iff fun x hx ↦ verify_of_mem_after hx]
  induction calls using List.reverseRecOn with
  | nil => simp [after]
  | append_singleton calls c ih =>
    rw [after_concat, distinct_store_iff (nodup_after calls), ih]
    refine ⟨fun ⟨hcalls, hc⟩ pre d post h ↦ ?_, fun h ↦ ⟨fun pre d post hd ↦ ?_, ?_⟩⟩
    · rcases List.eq_nil_or_concat' post with rfl | ⟨post, e, rfl⟩
      · obtain ⟨rfl, hcd⟩ := List.append_inj' h rfl
        rw [← List.head_eq_of_cons_eq hcd]
        exact hc
      · rw [← List.cons_append, ← List.append_assoc] at h
        exact hcalls pre d post (List.append_inj_left' h rfl)
    · exact h pre d (post ++ [c]) (by simp [hd])
    · exact h calls c [] rfl

/-- A key in lower case and in upper case has two entries. -/
theorem two_spellings : ¬OnePerKey openLib
    (after openLib [] [⟨1000, entryOf 'a' 1000⟩, ⟨1000, entryOf 'A' 1000⟩]) := by
  intro h
  have hne : entryOf 'a' 1000 ≠ entryOf 'A' 1000 := by
    intro heq
    have hname := String.ofList_injective (congrArg RelayEntry.nodeID heq)
    exact absurd (List.cons.inj hname).1 (by decide)
  have hafter : after openLib [] [⟨1000, entryOf 'a' 1000⟩, ⟨1000, entryOf 'A' 1000⟩] =
      [entryOf 'a' 1000, entryOf 'A' 1000] := by decide +kernel
  rw [hafter] at h
  refine hne (h _ (List.mem_cons_self ..) _ (List.mem_cons_of_mem _ (List.mem_cons_self ..))
    (List.replicate 32 170) ?_ ?_)
  · exact ⟨by decide +kernel, by decide +kernel⟩
  · exact ⟨by decide +kernel, by decide +kernel⟩

end RelayStore

/-! ## The store of a node -/

namespace Node

open RelayStore

/-- `Node.LoadRelays`, for a file that was read and parsed. -/
def loadRelays (E : Env) (now : ℤ) (n : Node) (entries : List RelayEntry) : Node :=
  { n with
    relays := entries.foldl (fun s e ↦ (RelayStore.store E.toSigLib (unix now) s e).2) n.relays }

/-- The entries that a message of a type offers to the store. -/
def offered (E : Env) (raw : Bytes) : MsgType → List RelayEntry
  | .announce => (E.unmarshalAnnounce raw).toList
  | .relayList => (E.unmarshalRelayList raw).getD []
  | _ => []

theorem foldl_store (L : SigLib) (now : Int64) (s : RelayStore) (entries : List RelayEntry) :
    entries.foldl (fun s e ↦ (RelayStore.store L now s e).2) s =
      s.after L (entries.map (⟨now, ·⟩)) := by
  rw [after, List.foldl_map]

/-- **What a message does to the store**: it calls `store` for the entries it offers. -/
theorem relays_dispatch (E : Env) (now : ℤ) (n : Node) (src : String) (raw : Bytes)
    (ty : MsgType) : (n.dispatch E now src raw ty).1.relays =
      n.relays.after E.toSigLib ((offered E raw ty).map (⟨unix now, ·⟩)) := by
  cases ty
  case announce =>
    simp only [dispatch, handleAnnounce, offered]
    cases E.unmarshalAnnounce raw with
    | none => rfl
    | some e =>
      dsimp only
      split
      · rename_i h
        exact (congrArg Prod.snd h).symm
      · rename_i h
        have hacc : ¬Accepts E.toSigLib ⟨unix now, e⟩ := fun hacc ↦
          h _ (Prod.ext (fst_store.mpr hacc) rfl)
        exact (store_of_not_accepts hacc).symm
  case relayList =>
    simp only [dispatch, handleRelayList, offered]
    cases E.unmarshalRelayList raw with
    | none => rfl
    | some entries => exact foldl_store ..
  -- the other handlers do not touch the store
  all_goals
    simp only [dispatch, offered, handleFindNode, handleManifestHave, handleManifestData,
      handleHolePunch, handleMirrorPunch, handleContentHave, handleContentData]
    repeat' split
    all_goals rfl

/-- The two nodes differ in what they know about their peers and in nothing else. -/
def SameButPeers (n n' : Node) : Prop :=
  ∃ rt pings timers, n' = { n with rt := rt, pendingPings := pings, timers := timers }

theorem sameButPeers_clearSuspectByAddr (n : Node) (src : String) :
    n.SameButPeers (n.clearSuspectByAddr src) := by
  rw [clearSuspectByAddr]
  split <;> exact ⟨_, _, _, rfl⟩

theorem relays_handlePacket (E : Env) (now : ℤ) (n : Node) (pkt : Bytes) (src : String) :
    ∃ calls, (n.handlePacket E now pkt src).1.relays = n.relays.after E.toSigLib calls := by
  have hclear : (n.clearSuspectByAddr src).relays = n.relays := by
    obtain ⟨rt, pings, timers, heq⟩ := n.sameButPeers_clearSuspectByAddr src
    rw [heq]
  rw [handlePacket]
  split
  · split
    · rw [← hclear]
      exact ⟨_, relays_dispatch ..⟩
    · exact ⟨[], hclear⟩
  · exact ⟨[], rfl⟩

/-- What happens to a node, the loading of saved relays included. -/
inductive Input where
  /-- A datagram, a ping, a timeout or a peers file. -/
  | arrival (a : Arrival)
  /-- `LoadRelays` reads these entries. -/
  | relays (now : ℤ) (entries : List RelayEntry)

/-- One step. -/
def input (E : Env) (n : Node) : Input → Option Node
  | .arrival a => n.arrive E a
  | .relays now entries => some (n.loadRelays E now entries)

variable {n n' : Node}

/-- Apart from datagrams and saved relays, what happens to a node is about its peers. -/
theorem input_cases {E : Env} {i : Input} (h : n.input E i = some n') :
    (∃ now pkt src, n' = (n.handlePacket E now pkt src).1) ∨
      (∃ now entries, n' = n.loadRelays E now entries) ∨ n.SameButPeers n' := by
  rcases i with (e | ⟨now, decrypt, file⟩) | ⟨now, entries⟩
  · cases e with
    | packet now pkt src => exact Or.inl ⟨now, pkt, src, (Option.some.inj h).symm⟩
    | timeout j =>
      obtain ⟨t, -, rfl⟩ := Option.map_eq_some_iff.mp h
      refine Or.inr (Or.inr ?_)
      rw [expire]
      split <;> exact ⟨_, _, _, rfl⟩
    | ping addr =>
      rw [← Option.some.inj h]
      refine Or.inr (Or.inr ?_)
      rcases pingAddr_cases E n addr with ⟨h, -⟩ | ⟨c, -, -, -, h⟩ <;> rw [h] <;>
        exact ⟨_, _, _, rfl⟩
  · rw [← Option.some.inj h]
    refine Or.inr (Or.inr ?_)
    cases file with
    | none => exact ⟨_, _, _, rfl⟩
    | some enc =>
      simp only [loadPeers]
      cases E.unmarshalPeers ((decrypt enc).getD enc) <;> exact ⟨_, _, _, rfl⟩
  · exact Or.inr (Or.inl ⟨now, entries, (Option.some.inj h).symm⟩)

/-- One step calls `store` some number of times and changes the store in no other way. -/
theorem relays_input {E : Env} {i : Input} (h : n.input E i = some n') :
    ∃ calls, n'.relays = n.relays.after E.toSigLib calls := by
  rcases input_cases h with ⟨now, pkt, src, rfl⟩ | ⟨now, entries, rfl⟩ | ⟨rt, pings, timers, rfl⟩
  · exact relays_handlePacket E now n pkt src
  · exact ⟨_, foldl_store ..⟩
  · exact ⟨[], rfl⟩

/-- **The stores a node can have**: from an empty one on, each is what some calls of `store` lead
to. -/
theorem relays_of_exec {E : Env} {is : List Input} (hn : n.relays = [])
    (h : Trace.exec (input E) n is = some n') :
    ∃ calls, n'.relays = after E.toSigLib [] calls := by
  refine Trace.inv_of_exec (P := fun m : Node ↦ ∃ calls, m.relays = after E.toSigLib [] calls)
    (fun ⟨calls, hcalls⟩ hstep ↦ ?_) ⟨[], hn⟩ h
  obtain ⟨more, hmore⟩ := relays_input hstep
  refine ⟨calls ++ more, ?_⟩
  rw [hmore, hcalls, after, after, after, List.foldl_append]

end Node

end TunnelCat.Dht
