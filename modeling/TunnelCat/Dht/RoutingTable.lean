import TunnelCat.Dht.Id
import TunnelCat.Lib.Keyed

/-!
# The routing table

`RoutingTable` keeps its contacts in 256 buckets of at most `K`, a contact in the bucket its
distance to our own identifier falls into.  The four operations each edit one bucket: `add`
overwrites the record of a contact that is already there, and otherwise makes room by dropping the
oldest one; `remove`, `markMissed` and `resetMissed` look for an identifier and edit the first
record that has it, which is `Keyed.updateFirst` three times.

`Valid` is the invariant, stated bucket by bucket; `valid_apply` says that one operation keeps it
and `valid_run` that any sequence of them does.  On a valid table an identifier has at most one
record (`eq_of_id_eq`), and the membership lemmas `mem_editFirst` and `mem_of_mem_add` say what is
in the table after an operation without mentioning buckets any more.
-/

set_option autoImplicit false

open Bytes Function Keyed

namespace TunnelCat.Dht

/-- `K`: how many contacts a bucket holds. -/
def K : ℕ := 8

/-- `maxMissedPings`: how many unanswered pings remove a contact. -/
def maxMissedPings : ℤ := 4

/-- `dht.Contact`. -/
structure Contact where
  /-- The identifier of the peer. -/
  id : ID
  /-- Its UDP address, `host:port`. -/
  addr : String
  /-- When it was last heard of. -/
  lastSeen : ℤ
  /-- How many pings in a row it has not answered. -/
  missedPings : ℤ
  /-- Whether it has failed to answer since it was last heard of. -/
  suspect : Bool
deriving DecidableEq, Repr

/-- The contacts of one bucket, oldest first. -/
abbrev Bucket := List Contact

namespace Bucket

/-- `bucket.add`. -/
def add (b : Bucket) (c : Contact) : Bucket :=
  if c.id ∈ b.map Contact.id then updateFirst Contact.id c.id (fun _ ↦ some c) b
  else (if K ≤ b.length then b.drop 1 else b) ++ [c]

/-- What `bucket.markMissed` makes of a record: one more missed ping and suspect, or gone. -/
def missed (c : Contact) : Option Contact :=
  if maxMissedPings ≤ c.missedPings + 1 then none
  else some { c with missedPings := c.missedPings + 1, suspect := true }

/-- What `bucket.resetMissed` makes of a record. -/
def cleared (c : Contact) : Contact := { c with missedPings := 0, suspect := false }

/-- `bucket.remove`. -/
def remove (b : Bucket) (id : ID) : Bucket := updateFirst Contact.id id (fun _ ↦ none) b

/-- `bucket.markMissed`. -/
def markMissed (b : Bucket) (id : ID) : Bucket := updateFirst Contact.id id missed b

/-- `bucket.resetMissed`. -/
def resetMissed (b : Bucket) (id : ID) : Bucket :=
  updateFirst Contact.id id (fun c ↦ some (cleared c)) b

theorem missed_eq_some {c d : Contact} :
    missed c = some d ↔ c.missedPings + 1 < maxMissedPings ∧
      d = { c with missedPings := c.missedPings + 1, suspect := true } := by
  rw [missed]
  split
  · simp only [reduceCtorEq, false_iff, not_and]
    omega
  · rw [Option.some_inj]
    exact ⟨fun h ↦ ⟨by omega, h.symm⟩, fun h ↦ h.2.symm⟩

variable {b : Bucket}

theorem mem_of_mem_add {c x : Contact} (h : x ∈ b.add c) : x = c ∨ x ∈ b := by
  rw [add] at h
  split at h
  · rcases mem_of_mem_updateFirst h with hx | ⟨a, -, he⟩
    · exact Or.inr hx
    · exact Or.inl (Option.some_inj.mp he).symm
  · rcases List.mem_append.mp h with hx | hx
    · split at hx
      · exact Or.inr (List.mem_of_mem_drop hx)
      · exact Or.inr hx
    · exact Or.inl (List.mem_singleton.mp hx)

theorem length_add_le (h : b.length ≤ K) (c : Contact) : (b.add c).length ≤ K := by
  rw [add]
  split
  · exact (length_updateFirst_le b).trans h
  · split
    · rw [List.length_append, List.length_drop, List.length_singleton]
      have hK : 1 ≤ K := by decide
      omega
    · rw [List.length_append, List.length_singleton]
      omega

theorem nodup_add (h : (b.map Contact.id).Nodup) (c : Contact) :
    ((b.add c).map Contact.id).Nodup := by
  rw [add]
  split
  · exact nodup_updateFirst (fun _ he ↦ by rw [← Option.some_inj.mp he]) h
  · rename_i hc
    have hsub : (if K ≤ b.length then b.drop 1 else b).Sublist b := by
      split
      · exact List.drop_sublist 1 b
      · exact List.Sublist.refl b
    rw [List.map_append, List.map_singleton, List.nodup_append]
    refine ⟨h.sublist (hsub.map _), List.nodup_singleton _, ?_⟩
    rintro _ hi _ hj rfl
    rw [List.mem_singleton] at hj
    exact hc (hj ▸ (hsub.map _).subset hi)

end Bucket

/-- `dht.RoutingTable`. -/
structure RoutingTable where
  /-- Our own identifier. -/
  self : ID
  /-- The buckets. -/
  buckets : Fin idBits → Bucket

namespace RoutingTable

/-- `NewRoutingTable`. -/
def new (self : ID) : RoutingTable := ⟨self, fun _ ↦ []⟩

/-- The bucket an identifier belongs in. -/
def bucketOf (self id : ID) : Fin idBits :=
  ⟨(self.xor id).bucketIndex, (self.xor id).bucketIndex_lt⟩

/-- What the operations have in common: edit the bucket an identifier belongs in. -/
def edit (rt : RoutingTable) (id : ID) (f : Bucket → Bucket) : RoutingTable :=
  { rt with
    buckets := update rt.buckets (bucketOf rt.self id)
      (f (rt.buckets (bucketOf rt.self id))) }

@[simp] theorem self_edit (rt : RoutingTable) (id : ID) (f : Bucket → Bucket) :
    (rt.edit id f).self = rt.self := rfl

@[simp] theorem buckets_edit_self (rt : RoutingTable) (id : ID) (f : Bucket → Bucket) :
    (rt.edit id f).buckets (bucketOf rt.self id) = f (rt.buckets (bucketOf rt.self id)) :=
  update_self ..

theorem buckets_edit_of_ne (rt : RoutingTable) (id : ID) (f : Bucket → Bucket) {i : Fin idBits}
    (hi : i ≠ bucketOf rt.self id) : (rt.edit id f).buckets i = rt.buckets i :=
  update_of_ne hi ..

/-- `RoutingTable.Add`. -/
def add (rt : RoutingTable) (c : Contact) : RoutingTable :=
  if c.id = rt.self then rt else rt.edit c.id (·.add c)

/-- `RoutingTable.Remove`. -/
def remove (rt : RoutingTable) (id : ID) : RoutingTable := rt.edit id (·.remove id)

/-- `RoutingTable.MarkMissed`. -/
def markMissed (rt : RoutingTable) (id : ID) : RoutingTable := rt.edit id (·.markMissed id)

/-- `RoutingTable.ResetMissed`. -/
def resetMissed (rt : RoutingTable) (id : ID) : RoutingTable := rt.edit id (·.resetMissed id)

/-- `RoutingTable.All`. -/
def all (rt : RoutingTable) : List Contact := (List.finRange idBits).flatMap rt.buckets

/-- What holds of bucket `i` of the table of the node `own`. -/
structure BucketOk (own : ID) (i : Fin idBits) (b : Bucket) : Prop where
  /-- It is not over-full. -/
  length_le : b.length ≤ K
  /-- No identifier occurs twice in it. -/
  nodup : (b.map Contact.id).Nodup
  /-- We are not in it. -/
  ne_self : ∀ c ∈ b, c.id ≠ own
  /-- Its contacts belong in it. -/
  bucketOf_eq : ∀ c ∈ b, bucketOf own c.id = i

/-- The invariant of the table: it holds of every bucket. -/
def Valid (rt : RoutingTable) : Prop := ∀ i, BucketOk rt.self i (rt.buckets i)

theorem valid_new (self : ID) : (new self).Valid := fun _ ↦ ⟨by simp [new], by simp [new],
  by simp [new], by simp [new]⟩

variable {f : Contact → Option Contact}

theorem BucketOk.updateFirst {own id : ID} {i : Fin idBits} {b : Bucket} (h : BucketOk own i b)
    (hf : ∀ {c d}, f c = some d → d.id = c.id) :
    BucketOk own i (updateFirst Contact.id id f b) where
  length_le := (length_updateFirst_le b).trans h.length_le
  nodup := nodup_updateFirst (fun hk he ↦ (hf he).trans hk) h.nodup
  ne_self c hc := by
    rcases mem_of_mem_updateFirst hc with hc | ⟨a, ha, he⟩
    · exact h.ne_self c hc
    · exact hf he ▸ h.ne_self a ha
  bucketOf_eq c hc := by
    rcases mem_of_mem_updateFirst hc with hc | ⟨a, ha, he⟩
    · exact h.bucketOf_eq c hc
    · exact hf he ▸ h.bucketOf_eq a ha

theorem BucketOk.add {own : ID} {b : Bucket} {c : Contact} (hc : c.id ≠ own)
    (h : BucketOk own (bucketOf own c.id) b) : BucketOk own (bucketOf own c.id) (b.add c) where
  length_le := Bucket.length_add_le h.length_le c
  nodup := Bucket.nodup_add h.nodup c
  ne_self x hx := by
    rcases Bucket.mem_of_mem_add hx with rfl | hx
    · exact hc
    · exact h.ne_self x hx
  bucketOf_eq x hx := by
    rcases Bucket.mem_of_mem_add hx with rfl | hx
    · rfl
    · exact h.bucketOf_eq x hx

variable {rt : RoutingTable} {id : ID} {x : Contact} {c d : Contact}

theorem Valid.edit (h : rt.Valid) {f : Bucket → Bucket}
    (hf : ∀ {b}, BucketOk rt.self (bucketOf rt.self id) b →
      BucketOk rt.self (bucketOf rt.self id) (f b)) : (rt.edit id f).Valid := by
  intro i
  by_cases hi : i = bucketOf rt.self id
  · subst hi
    rw [buckets_edit_self]
    exact hf (h _)
  · rw [buckets_edit_of_ne _ _ _ hi]
    exact h i

theorem Valid.add (h : rt.Valid) (c : Contact) : (rt.add c).Valid := by
  rw [RoutingTable.add]
  split
  · exact h
  · rename_i hc
    exact h.edit (BucketOk.add hc)

theorem Valid.remove (h : rt.Valid) (id : ID) : (rt.remove id).Valid :=
  h.edit fun hb ↦ hb.updateFirst fun he ↦ absurd he (by simp)

theorem missed_id (h : Bucket.missed c = some d) : d.id = c.id := by
  rw [(Bucket.missed_eq_some.mp h).2]

theorem cleared_id (h : some (Bucket.cleared c) = some d) : d.id = c.id := by
  rw [← Option.some_inj.mp h, Bucket.cleared]

theorem Valid.markMissed (h : rt.Valid) (id : ID) : (rt.markMissed id).Valid :=
  h.edit fun hb ↦ hb.updateFirst missed_id

theorem Valid.resetMissed (h : rt.Valid) (id : ID) :
    (rt.resetMissed id).Valid :=
  h.edit fun hb ↦ hb.updateFirst cleared_id

/-! ## Reading the table -/

theorem mem_all (h : rt.Valid) {c : Contact} :
    c ∈ rt.all ↔ c ∈ rt.buckets (bucketOf rt.self c.id) := by
  rw [all, List.mem_flatMap]
  constructor
  · rintro ⟨i, -, hc⟩
    rw [(h i).bucketOf_eq c hc]
    exact hc
  · exact fun hc ↦ ⟨_, List.mem_finRange _, hc⟩

/-- No identifier occurs twice anywhere in the table. -/
theorem nodup_all (h : rt.Valid) : (rt.all.map Contact.id).Nodup := by
  rw [all, List.map_flatMap, List.nodup_flatMap]
  refine ⟨fun i _ ↦ (h i).nodup, (List.nodup_finRange _).imp fun {i j} hij ↦ ?_⟩
  intro id hi hj
  obtain ⟨c, hc, rfl⟩ := List.mem_map.mp hi
  obtain ⟨d, hd, hid⟩ := List.mem_map.mp hj
  exact hij (by rw [← (h i).bucketOf_eq c hc, ← hid, (h j).bucketOf_eq d hd])

/-- A record is determined by its identifier. -/
theorem eq_of_id_eq (h : rt.Valid) (hc : c ∈ rt.all) (hd : d ∈ rt.all) (hid : c.id = d.id) :
    c = d :=
  List.inj_on_of_nodup_map (nodup_all h) hc hd hid

theorem ne_self (h : rt.Valid) {c : Contact} (hc : c ∈ rt.all) :
    c.id ≠ rt.self :=
  (h _).ne_self c ((mem_all h).mp hc)

/-- What is in the table after the first record with an identifier has been edited. -/
theorem mem_editFirst (h : rt.Valid) (hf : ∀ {c d}, f c = some d → d.id = c.id) :
    x ∈ (rt.edit id (updateFirst Contact.id id f)).all ↔
      (x ∈ rt.all ∧ x.id ≠ id) ∨ ∃ c ∈ rt.all, c.id = id ∧ f c = some x := by
  rw [mem_all (h.edit fun hb ↦ hb.updateFirst hf), self_edit]
  by_cases hi : bucketOf rt.self x.id = bucketOf rt.self id
  · rw [hi, buckets_edit_self, mem_updateFirst (h _).nodup, mem_all h, hi]
    refine or_congr_right (exists_congr fun c ↦ ?_)
    constructor
    · exact fun ⟨hc, hid, he⟩ ↦ ⟨(mem_all h).mpr (by rw [hid]; exact hc), hid, he⟩
    · exact fun ⟨hc, hid, he⟩ ↦ ⟨by rw [← hid]; exact (mem_all h).mp hc, hid, he⟩
  · rw [buckets_edit_of_ne _ _ _ hi, mem_all h]
    constructor
    · exact fun hx ↦ Or.inl ⟨hx, fun he ↦ hi (by rw [he])⟩
    · rintro (⟨hx, -⟩ | ⟨c, -, hid, he⟩)
      · exact hx
      · exact absurd (by rw [hf he, hid]) hi

theorem mem_remove (h : rt.Valid) :
    x ∈ (rt.remove id).all ↔ x ∈ rt.all ∧ x.id ≠ id := by
  rw [remove, show (fun b : Bucket ↦ b.remove id) = updateFirst Contact.id id fun _ ↦ none from rfl,
    mem_editFirst h fun he ↦ absurd he (by simp)]
  simp

theorem mem_markMissed (h : rt.Valid) :
    x ∈ (rt.markMissed id).all ↔
      (x ∈ rt.all ∧ x.id ≠ id) ∨ ∃ c ∈ rt.all, c.id = id ∧ Bucket.missed c = some x :=
  mem_editFirst h missed_id

theorem mem_resetMissed (h : rt.Valid) :
    x ∈ (rt.resetMissed id).all ↔
      (x ∈ rt.all ∧ x.id ≠ id) ∨ ∃ c ∈ rt.all, c.id = id ∧ Bucket.cleared c = x := by
  rw [← exists_congr fun c ↦ and_congr_right fun _ ↦ and_congr_right fun _ ↦ Option.some_inj]
  exact mem_editFirst h cleared_id

theorem mem_of_mem_add {c x : Contact} (hx : x ∈ (rt.add c).all) :
    x = c ∨ x ∈ rt.all := by
  rw [add] at hx
  split at hx
  · exact Or.inr hx
  · rw [all, List.mem_flatMap] at hx
    obtain ⟨i, -, hx⟩ := hx
    by_cases hi : i = bucketOf rt.self c.id
    · subst hi
      rw [buckets_edit_self] at hx
      refine (Bucket.mem_of_mem_add hx).imp_right fun hx ↦ ?_
      exact List.mem_flatMap.mpr ⟨_, List.mem_finRange _, hx⟩
    · rw [buckets_edit_of_ne _ _ _ hi] at hx
      exact Or.inr (List.mem_flatMap.mpr ⟨i, List.mem_finRange _, hx⟩)

/-! ## Sequences of operations -/

/-- A call that changes the table. -/
inductive Op where
  /-- `Add`. -/
  | add : Contact → Op
  /-- `Remove`. -/
  | remove : ID → Op
  /-- `MarkMissed`. -/
  | markMissed : ID → Op
  /-- `ResetMissed`. -/
  | resetMissed : ID → Op
deriving DecidableEq, Repr

/-- One call. -/
def apply (rt : RoutingTable) : Op → RoutingTable
  | .add c => rt.add c
  | .remove id => rt.remove id
  | .markMissed id => rt.markMissed id
  | .resetMissed id => rt.resetMissed id

/-- A sequence of calls. -/
def run (rt : RoutingTable) (ops : List Op) : RoutingTable := ops.foldl apply rt

theorem self_apply (rt : RoutingTable) (op : Op) : (rt.apply op).self = rt.self := by
  cases op with
  | add c =>
    rw [apply, add]
    split <;> rfl
  | remove _ | markMissed _ | resetMissed _ => rfl

theorem valid_apply (h : rt.Valid) (op : Op) : (rt.apply op).Valid := by
  cases op with
  | add c => exact h.add c
  | remove id => exact h.remove id
  | markMissed id => exact h.markMissed id
  | resetMissed id => exact h.resetMissed id

theorem valid_run (h : rt.Valid) (ops : List Op) :
    (rt.run ops).Valid ∧ (rt.run ops).self = rt.self := by
  induction ops generalizing rt with
  | nil => exact ⟨h, rfl⟩
  | cons op ops ih =>
    obtain ⟨hv, hs⟩ := ih (valid_apply h op)
    exact ⟨hv, hs.trans (self_apply rt op)⟩

/-- No stored contact has been missed as often as removes it. -/
def Fresh (rt : RoutingTable) : Prop := ∀ c ∈ rt.all, c.missedPings < maxMissedPings

theorem fresh_apply (hv : rt.Valid) (h : rt.Fresh) {op : Op}
    (hop : ∀ c, op = .add c → c.missedPings = 0) : (rt.apply op).Fresh := by
  intro x hx
  cases op with
  | add c =>
    rcases mem_of_mem_add hx with rfl | hx
    · rw [hop x rfl]
      decide
    · exact h x hx
  | remove id => exact h x ((mem_remove hv).mp hx).1
  | markMissed id =>
    rcases (mem_markMissed hv).mp hx with ⟨hx, -⟩ | ⟨c, -, -, he⟩
    · exact h x hx
    · obtain ⟨hlt, rfl⟩ := Bucket.missed_eq_some.mp he
      exact hlt
  | resetMissed id =>
    rcases (mem_resetMissed hv).mp hx with ⟨hx, -⟩ | ⟨c, -, -, rfl⟩
    · exact h x hx
    · exact show (0 : ℤ) < maxMissedPings by decide

theorem fresh_run (hv : rt.Valid) (h : rt.Fresh) {ops : List Op}
    (hops : ∀ c, .add c ∈ ops → c.missedPings = 0) : (rt.run ops).Fresh := by
  induction ops generalizing rt with
  | nil => exact h
  | cons op ops ih =>
    refine ih (valid_apply hv op) (fresh_apply hv h fun c hc ↦ hops c ?_) fun c hc ↦ hops c ?_
    · rw [hc]
      exact List.mem_cons_self
    · exact List.mem_cons_of_mem _ hc

/-- **The invariant of the routing table**, after any sequence of calls on a new table: the buckets
are within their bound, no identifier occurs twice and our own not at all, every contact sits in
the bucket of its distance, which is the number of leading bits it shares with us, and no contact
has used up its missed pings unless one was added that way. -/
theorem routing_table_invariant (self : ID) (ops : List Op) :
    (∀ i, (((new self).run ops).buckets i).length ≤ K) ∧
    (((new self).run ops).all.map Contact.id).Nodup ∧
    (∀ c ∈ ((new self).run ops).all, c.id ≠ self) ∧
    (∀ i, ∀ c ∈ ((new self).run ops).buckets i, (self.xor c.id).bucketIndex = i) ∧
    (∀ id, id ≠ self →
      (self.xor id).bucketIndex = commonPrefix (bits self.bytes) (bits id.bytes)) ∧
    ((∀ c, .add c ∈ ops → c.missedPings = 0) →
      ∀ c ∈ ((new self).run ops).all, c.missedPings < maxMissedPings) := by
  obtain ⟨hv, hs⟩ := valid_run (valid_new self) ops
  refine ⟨fun i ↦ (hv i).length_le, nodup_all hv, ?_, ?_, fun id ↦ ID.bucketIndex_xor, ?_⟩
  · exact fun c hc he ↦ ne_self hv hc (he.trans hs.symm)
  · intro i c hc
    have hi := (hv i).bucketOf_eq c hc
    rw [hs, new] at hi
    exact congrArg Fin.val hi
  · refine fun hops ↦ fresh_run (valid_new self) ?_ hops
    intro c hc
    simp [all, new] at hc

end RoutingTable

end TunnelCat.Dht
