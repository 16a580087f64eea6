import TunnelCat.Dht.RelayRuns
import TunnelCat.Dht.Replies

/-!
# What a node has after a restart

A node writes its contacts to a file every five minutes and when it stops, and reads them back in
`Bootstrap`; the relay entries it knows are saved and loaded in the same way by the program.

Loading is adding: `loadPeers` calls `rt.Add` for each contact of the file, in the order in which
`rt.All` had them.  A bucket that is full drops its oldest contact when one is added, so this could
lose some; it does not, because the contacts of a bucket come one after the other and are no more
than fit (`foldl_add_new`).  `peers_restored` says that every bucket comes back with the same
contacts in the same order.  What does not come back is their record: a contact that was suspect is
not any more.

A relay entry is checked again when it is loaded, against the clock of that moment.
`relays_restored` says that this makes no difference: what the node gives out after the restart is
what the node that saved the file would give out.  `SaveRelays` does not write an empty file, so an
older one can be left; by then nothing in it is young enough to be accepted.
-/

set_option autoImplicit false

namespace TunnelCat.Dht

/-! ## The file of contacts -/

/-- The encryption of the file, with the randomness it uses. -/
structure PeersCrypto where
  /-- `encryptFn`. -/
  encrypt : ℕ → Bytes → Option Bytes
  /-- `decryptFn`. -/
  decrypt : Bytes → Option Bytes
  /-- What was encrypted can be decrypted. -/
  decrypt_encrypt : ∀ {r plain enc}, encrypt r plain = some enc → decrypt enc = some plain

/-- The JSON text of a `peersFile`. -/
def peersText (contacts : List ContactJSON) : Bytes :=
  Json.object [("contacts", Json.array (contacts.map ContactJSON.text))]

/-- `Node.savePeers`, up to writing the file. -/
def Node.savePeers (C : PeersCrypto) (r : ℕ) (n : Node) : Option Bytes :=
  C.encrypt r (peersText (n.rt.all.map contactToJSON))

/-- What is left of a contact in the file, at the time when it is read. -/
def Contact.renewed (now : ℤ) (c : Contact) : Contact := ⟨c.id, c.addr, now, 0, false⟩

theorem contactFromJSON_contactToJSON (now : ℤ) (c : Contact) :
    contactFromJSON now (contactToJSON c) = some (c.renewed now) := by
  rw [contactFromJSON, contactToJSON, ID.parse_toHex]
  rfl

/-! ## Filling a table -/

namespace RoutingTable

/-- The contacts of a list that belong in a bucket. -/
def share (own : ID) (i : Fin idBits) (cs : List Contact) : Bucket :=
  cs.filter fun c ↦ bucketOf own c.id = i

/-- **Adding contacts to a new table**, if none comes twice and no bucket gets more than it holds:
each bucket has its share, in order. -/
theorem foldl_add_new {own : ID} {cs : List Contact} (hnodup : (cs.map Contact.id).Nodup)
    (hself : ∀ c ∈ cs, c.id ≠ own) (hroom : ∀ i, (share own i cs).length ≤ K) :
    (cs.foldl add (new own)).self = own ∧
      ∀ i, (cs.foldl add (new own)).buckets i = share own i cs := by
  induction cs using List.reverseRecOn with
  | nil => exact ⟨rfl, fun _ ↦ rfl⟩
  | append_singleton cs c ih =>
    have hshare : ∀ i, share own i (cs ++ [c]) =
        share own i cs ++ if bucketOf own c.id = i then [c] else [] := fun i ↦ by
      rw [share, share, List.filter_append, List.filter_singleton]
      by_cases h : bucketOf own c.id = i <;> simp [h]
    rw [List.map_append, List.map_singleton] at hnodup
    obtain ⟨hcs, -, hnew⟩ := List.nodup_append.mp hnodup
    obtain ⟨hown, hbuckets⟩ := ih hcs (fun d hd ↦ hself d (List.mem_append_left _ hd)) fun i ↦ by
      have := hroom i
      rw [hshare, List.length_append] at this
      omega
    have hne : c.id ≠ own := hself c (List.mem_append_right _ (List.mem_singleton_self c))
    rw [List.foldl_append, List.foldl_cons, List.foldl_nil, add, hown, if_neg hne, edit]
    refine ⟨hown, fun i ↦ ?_⟩
    dsimp only
    rw [hown, hshare]
    rcases eq_or_ne i (bucketOf own c.id) with rfl | hi
    · -- the contact is new, and there is room for it
      have hfull := hroom (bucketOf own c.id)
      rw [hshare, if_pos rfl, List.length_append, List.length_singleton] at hfull
      have hnot : c.id ∉ (share own (bucketOf own c.id) cs).map Contact.id := fun hmem ↦ by
        obtain ⟨d, hd, hid⟩ := List.mem_map.mp hmem
        exact hnew d.id (List.mem_map_of_mem (List.mem_of_mem_filter hd)) c.id
          (List.mem_singleton_self _) hid
      rw [Function.update_self, hbuckets, Bucket.add, if_neg hnot, if_neg (by omega), if_pos rfl]
    · rw [Function.update_of_ne hi, hbuckets, if_neg (Ne.symm hi), List.append_nil]

/-- Of several lists one after the other, all but one are dropped. -/
theorem flatMap_ite_eq {α β : Type*} [DecidableEq α] {l : List α} (hl : l.Nodup) {i : α}
    (hi : i ∈ l) (f : α → List β) : (l.flatMap fun j ↦ if j = i then f j else []) = f i := by
  induction l with
  | nil => cases hi
  | cons j l ih =>
    rw [List.nodup_cons] at hl
    rw [List.flatMap_cons]
    rcases eq_or_ne j i with rfl | hne
    · have hnone : (l.flatMap fun k ↦ if k = j then f k else []) = [] :=
        List.flatMap_eq_nil_iff.mpr fun k hk ↦ if_neg (ne_of_mem_of_not_mem hk hl.1)
      rw [hnone, if_pos rfl, List.append_nil]
    · rw [if_neg hne, List.nil_append]
      exact ih hl.2 ((List.mem_cons.mp hi).resolve_left (Ne.symm hne))

/-- The contacts of a bucket, among all. -/
theorem share_all {rt : RoutingTable} (h : rt.Valid) (i : Fin idBits) :
    share rt.self i rt.all = rt.buckets i := by
  have hbucket : ∀ j, (rt.buckets j).filter (fun c ↦ bucketOf rt.self c.id = i) =
      if j = i then rt.buckets j else [] := fun j ↦ by
    split
    · rename_i hj
      exact List.filter_eq_self.mpr fun c hc ↦ decide_eq_true (hj ▸ (h j).bucketOf_eq c hc)
    · rename_i hj
      exact List.filter_eq_nil_iff.mpr fun c hc heq ↦
        hj ((h j).bucketOf_eq c hc ▸ of_decide_eq_true heq)
  rw [share, all, List.filter_flatMap]
  simp only [hbucket]
  exact flatMap_ite_eq (List.nodup_finRange _) (List.mem_finRange i) _

end RoutingTable

/-! ## The contacts after a restart -/

namespace Node

open RoutingTable

variable {E : Env} {n n' : Node}

theorem self_step {e : Event} (h : n.step E e = some n') : n'.rt.self = n.rt.self := by
  cases e with
  | packet now pkt src =>
    rw [← Option.some.inj h, rt_handlePacket]
    split
    · rw [self_foldl_add, self_clearSuspectByAddr]
    · rfl
  | timeout j =>
    obtain ⟨t, -, rfl⟩ := Option.map_eq_some_iff.mp h
    rw [rt_expire]
    split
    · exact self_apply _ (.markMissed _)
    · rfl
  | ping addr => rw [← Option.some.inj h, rt_pingAddr]

theorem valid_input {i : Input} (hv : n.rt.Valid) (h : n.input E i = some n') :
    n'.rt.Valid ∧ n'.rt.self = n.rt.self := by
  rcases i with (e | ⟨now, decrypt, file⟩) | ⟨now, entries⟩
  · exact ⟨valid_step hv h, self_step h⟩
  · rw [← Option.some.inj h, rt_loadPeers]
    exact ⟨valid_foldl_add hv _, self_foldl_add _ _⟩
  · rw [← Option.some.inj h]
    exact ⟨hv, rfl⟩

/-- The routing table of a node is valid, and it is the one of its identifier. -/
theorem valid_of_exec {id : ID} {localAddr : String} {is : List Input}
    (h : Trace.exec (input E) (.new id localAddr) is = some n) :
    n.rt.Valid ∧ n.rt.self = id :=
  Trace.inv_of_exec (P := fun n : Node ↦ n.rt.Valid ∧ n.rt.self = id)
    (fun hn hs ↦ (valid_input hn.1 hs).imp_right fun hself ↦ hself.trans hn.2)
    ⟨valid_new id, rfl⟩ h

/-- **The contacts survive a restart.**  Whatever a node has been through, if its file was written
and can be read — encrypted, or as the plaintext of an earlier version, which does not decrypt —
then every bucket of the new node has the same contacts in the same order, with a clean record; and
saving them again writes the same list. -/
theorem peers_restored {C : PeersCrypto} {id : ID} {localAddr localAddr' : String}
    {is : List Input} (hrun : Trace.exec (input E) (.new id localAddr) is = some n)
    (hjson : E.unmarshalPeers (peersText (n.rt.all.map contactToJSON)) =
      some (n.rt.all.map contactToJSON))
    {file : Bytes} (hfile : (∃ r, n.savePeers C r = some file) ∨
      file = peersText (n.rt.all.map contactToJSON) ∧ C.decrypt file = none) (now : ℤ) :
    (∀ i, ((Node.new id localAddr').loadPeers E now C.decrypt (some file)).rt.buckets i =
      (n.rt.buckets i).map (Contact.renewed now)) ∧
    ((Node.new id localAddr').loadPeers E now C.decrypt (some file)).rt.all.map contactToJSON =
      n.rt.all.map contactToJSON := by
  obtain ⟨hv, hself⟩ := valid_of_exec hrun
  have hplain : (C.decrypt file).getD file = peersText (n.rt.all.map contactToJSON) := by
    rcases hfile with ⟨r, hr⟩ | ⟨rfl, hnone⟩
    · rw [C.decrypt_encrypt hr, Option.getD_some]
    · rw [hnone, Option.getD_none]
  have hcontacts : (n.rt.all.map contactToJSON).filterMap (contactFromJSON now) =
      n.rt.all.map (Contact.renewed now) := by
    rw [List.filterMap_map, ← List.filterMap_eq_map]
    exact List.filterMap_congr fun c _ ↦ contactFromJSON_contactToJSON now c
  have hids : (n.rt.all.map (Contact.renewed now)).map Contact.id = n.rt.all.map Contact.id := by
    rw [List.map_map]
    rfl
  have hshare : ∀ i, share id i (n.rt.all.map (Contact.renewed now)) =
      (n.rt.buckets i).map (Contact.renewed now) := fun i ↦ by
    rw [← share_all hv i, share, List.filter_map, hself]
    rfl
  have hbuckets : ∀ i,
      ((Node.new id localAddr').loadPeers E now C.decrypt (some file)).rt.buckets i =
        (n.rt.buckets i).map (Contact.renewed now) := fun i ↦ by
    rw [rt_loadPeers, contactsInFile, hplain, hjson]
    dsimp only
    rw [hcontacts, ← hshare]
    refine (foldl_add_new (hids ▸ nodup_all hv) (fun c hc ↦ ?_)
      fun i ↦ ?_).2 i
    · obtain ⟨d, hd, rfl⟩ := List.mem_map.mp hc
      exact fun heq ↦ ne_self hv hd (heq.trans hself.symm)
    · rw [hshare, List.length_map]
      exact (hv i).length_le
  refine ⟨hbuckets, ?_⟩
  rw [all, all, List.map_flatMap, List.map_flatMap]
  refine List.flatMap_congr fun i _ ↦ ?_
  rw [hbuckets, List.map_map]
  rfl

/-- A file with one byte in front. -/
def markCrypto : PeersCrypto where
  encrypt _ plain := some (1 :: plain)
  decrypt enc := enc.tail?
  decrypt_encrypt h := Option.some.inj h ▸ rfl

/-- An environment in which the file with the suspect peer can be read. -/
def savedEnv : Env := { demoEnv with
  unmarshalPeers := fun raw ↦
    if raw = peersText [contactToJSON suspectPeer] then some [contactToJSON suspectPeer] else none }

/-- A peer that missed a ping is saved, and is no longer suspect afterwards. -/
theorem peers_restored_suspect :
    ∃ n, Trace.exec (input savedEnv) (.new zeroID "198.51.100.1:4000")
        (demoHistory.map fun e ↦ .arrival (.event e)) = some n ∧
      n.rt.all = [suspectPeer] ∧
      ∃ file, n.savePeers markCrypto 0 = some file ∧
        ((Node.new zeroID "198.51.100.1:5000").loadPeers savedEnv 0 markCrypto.decrypt
          (some file)).rt.buckets (bucketOf zeroID peer.id) =
            (n.rt.buckets (bucketOf zeroID peer.id)).map
              (Contact.renewed 0) := by
  have hrun : (Trace.exec (input savedEnv) (.new zeroID "198.51.100.1:4000")
      (demoHistory.map fun e ↦ .arrival (.event e))).map (fun n ↦ n.rt.all) =
        some [suspectPeer] := by
    decide +kernel
  obtain ⟨n, hn, hall⟩ := Option.map_eq_some_iff.mp hrun
  have hjson : savedEnv.unmarshalPeers (peersText (n.rt.all.map contactToJSON)) =
      some (n.rt.all.map contactToJSON) := by
    rw [hall, List.map_singleton, savedEnv]
    dsimp only
    rw [if_pos rfl]
  exact ⟨n, hn, hall, _, rfl, (peers_restored hn hjson (Or.inl ⟨0, rfl⟩) 0).1 _⟩

end Node

/-! ## The file of relays -/

namespace RelayStore

variable {L : SigLib} {s entries : RelayStore} {now t : Int64} {e : RelayEntry}

/-- The time stamp of an entry is one that `store` can have accepted up to now. -/
def Dated (now : Int64) (e : RelayEntry) : Prop :=
  -120 ≤ e.ts.toInt ∧ e.ts.toInt ≤ now.toInt + 120

theorem Dated.mono (h : Dated now e) (hle : now.toInt ≤ t.toInt) : Dated t e :=
  ⟨h.1, by have := h.2; omega⟩

/-- The age of an entry does not wrap around. -/
theorem Dated.fresh_iff (h : Dated now e) (hle : now.toInt ≤ t.toInt) (h₀ : 0 ≤ t.toInt)
    (ht : t.toInt < 2 ^ 62) : t - e.ts ≤ relayTTL ↔ t.toInt - e.ts.toInt ≤ 120 := by
  obtain ⟨hlo, hhi⟩ := h
  rw [Int64.le_iff_toInt_le, Int64.toInt_sub, toInt_relayTTL, Int.bmod_def]
  split <;> omega

/-- An entry that is not too old is accepted again. -/
theorem Dated.accepts (h : Dated now e) (hv : verifyRelayEntry L e = .ok ())
    (hle : now.toInt ≤ t.toInt) (h₀ : 0 ≤ t.toInt) (ht : t.toInt < 2 ^ 62)
    (hfresh : t.toInt - e.ts.toInt ≤ 120) : Accepts L ⟨t, e⟩ := by
  have hhi := h.2
  refine (accepts_iff L (c := ⟨t, e⟩) h₀ ht).mpr ⟨hv, abs_le.mpr ⟨?_, hfresh⟩⟩
  dsimp only
  omega

/-- Storing entries of which none is known: those that are accepted are appended. -/
theorem after_of_nodup (h : ((s ++ entries).map RelayEntry.nodeID).Nodup) :
    s.after L (entries.map (⟨now, ·⟩)) = s ++ entries.filter fun e ↦ Accepts L ⟨now, e⟩ := by
  induction entries generalizing s with
  | nil => exact (List.append_nil s).symm
  | cons e entries ih =>
    rw [List.map_cons, ← List.singleton_append, after, List.foldl_append]
    by_cases hacc : Accepts L ⟨now, e⟩
    · have hnew : e.nodeID ∉ s.map RelayEntry.nodeID := fun hmem ↦ by
        rw [List.map_append, List.map_cons] at h
        exact (List.nodup_append.mp h).2.2 _ hmem _ (List.mem_cons_self ..) rfl
      have hstore : (s.store L now e).2 = s ++ [e] := by
        refine (store_of_accepts (c := ⟨now, e⟩) hacc).trans ?_
        rw [if_neg, assign, if_neg hnew]
        rintro ⟨x, hx, -⟩
        exact hnew (List.mem_map.mpr ⟨x, List.mem_of_find?_eq_some hx, by
          simpa using List.find?_some hx⟩)
      rw [List.foldl_cons, List.foldl_nil, hstore, List.filter_cons_of_pos (by simpa using hacc)]
      refine (ih (s := s ++ [e]) ?_).trans (List.append_assoc ..)
      rwa [List.append_assoc, List.singleton_append]
    · rw [List.foldl_cons, List.foldl_nil, store_of_not_accepts (c := ⟨now, e⟩) hacc,
        List.filter_cons_of_neg (by simpa using hacc)]
      refine ih (h.sublist (List.Sublist.map _ ?_))
      exact (List.sublist_cons_self ..).append_left s

end RelayStore

/-- The clock reading that comes with an input. -/
def Node.Input.time : Node.Input → Option ℤ
  | .arrival (.event (.packet now _ _)) | .arrival (.peers now _ _) | .relays now _ => some now
  | .arrival (.event (.timeout _)) | .arrival (.event (.ping _)) => none

/-- The calls of `store` in a step, with the clock reading they are made at. -/
theorem Node.relays_input_timed {E : Env} {n n' : Node} {i : Node.Input}
    (h : n.input E i = some n') :
    ∃ calls : List RelayStore.Call, n'.relays = n.relays.after E.toSigLib calls ∧
      ∀ c ∈ calls, ∃ now ∈ i.time, c.now = unix now := by
  rcases i with (e | ⟨now, decrypt, file⟩) | ⟨now, entries⟩
  · cases e with
    | packet now pkt src =>
      have hclear : (n.clearSuspectByAddr src).relays = n.relays := by
        obtain ⟨rt, pings, timers, heq⟩ := n.sameButPeers_clearSuspectByAddr src
        rw [heq]
      rw [← Option.some.inj h, handlePacket]
      split
      · split
        · rw [← hclear]
          refine ⟨_, relays_dispatch .., fun c hc ↦ ?_⟩
          obtain ⟨e, -, rfl⟩ := List.mem_map.mp hc
          exact ⟨now, rfl, rfl⟩
        · exact ⟨[], hclear, fun _ hc ↦ absurd hc List.not_mem_nil⟩
      · exact ⟨[], rfl, fun _ hc ↦ absurd hc List.not_mem_nil⟩
    | timeout j =>
      obtain ⟨t, -, rfl⟩ := Option.map_eq_some_iff.mp h
      refine ⟨[], ?_, fun _ hc ↦ absurd hc List.not_mem_nil⟩
      rw [expire]
      split <;> rfl
    | ping addr =>
      rw [← Option.some.inj h]
      refine ⟨[], ?_, fun _ hc ↦ absurd hc List.not_mem_nil⟩
      rcases pingAddr_cases E n addr with ⟨h, -⟩ | ⟨c, -, -, -, h⟩ <;> rw [h] <;> rfl
  · rw [← Option.some.inj h]
    refine ⟨[], ?_, fun _ hc ↦ absurd hc List.not_mem_nil⟩
    cases file with
    | none => rfl
    | some enc =>
      simp only [loadPeers]
      cases E.unmarshalPeers ((decrypt enc).getD enc) <;> rfl
  · rw [← Option.some.inj h]
    refine ⟨_, foldl_store .., fun c hc ↦ ?_⟩
    obtain ⟨e, -, rfl⟩ := List.mem_map.mp hc
    exact ⟨now, rfl, rfl⟩

/-- A node and its file of relays. -/
structure Life where
  /-- The node. -/
  node : Node
  /-- The entries in the file, which are written and read as JSON. -/
  file : Option (List RelayEntry)
  /-- The last clock reading. -/
  clock : ℤ

namespace Life

open Node RelayStore
open RoutingTable (zeroID)

/-- The first start. -/
def start (id : ID) (localAddr : String) : Life := ⟨.new id localAddr, none, 0⟩

/-- What happens in the life of a node. -/
inductive Event where
  /-- Something happens to the node. -/
  | input (i : Input)
  /-- `SaveRelays`; the order of the entries is that in which the map is iterated. -/
  | save (now : ℤ) (entries : List RelayEntry)
  /-- The node stops, and a new one calls `LoadRelays`. -/
  | restart (now : ℤ) (localAddr : String)

/-- The event does not write the file. -/
def Event.isSave : Event → Bool
  | .save _ _ => true
  | _ => false

/-- The clock does not go back, and it is a number of nanoseconds that `int64` has. -/
def Ticks (l : Life) (now : ℤ) : Prop := l.clock ≤ now ∧ now < 2 ^ 63

instance (l : Life) (now : ℤ) : Decidable (l.Ticks now) := inferInstanceAs (Decidable (_ ∧ _))

/-- One step.  `SaveRelays` leaves the file as it is if there is nothing to save. -/
def step (E : Env) (id : ID) (l : Life) : Event → Option Life
  | .input i =>
    if ∀ now ∈ i.time, l.Ticks now then
      (l.node.input E i).map fun n ↦ { l with node := n, clock := i.time.getD l.clock }
    else none
  | .save now entries =>
    if l.Ticks now ∧ entries.Perm (l.node.relays.all (unix now)) then
      some { l with file := if entries = [] then l.file else some entries, clock := now }
    else none
  | .restart now localAddr =>
    if l.Ticks now then
      some { l with
        node := (Node.new id localAddr).loadRelays E now (l.file.getD [])
        clock := now }
    else none

/-! ### What holds throughout -/

theorem toInt_unix {t : ℤ} (h₀ : 0 ≤ t) (ht : t < 2 ^ 63) : (unix t).toInt = t / 1000000000 := by
  rw [unix]
  exact Int64.toInt_ofInt_of_le (by omega) (by omega)

variable {E : Env} {id : ID} {l l' : Life}

/-- **The invariant**: the file has one entry for each node, each of them verified, and the node has
an entry that is at least as new unless the entry in the file is too old. -/
structure Inv (E : Env) (l : Life) : Prop where
  /-- The clock. -/
  clock : 0 ≤ l.clock ∧ l.clock < 2 ^ 63
  /-- The store is the result of calls of `store` up to now. -/
  store : ∃ calls, l.node.relays = after E.toSigLib [] calls ∧
    ∀ c ∈ calls, 0 ≤ c.now.toInt ∧ c.now.toInt ≤ (unix l.clock).toInt
  /-- The entries in the file verify. -/
  verified : ∀ e ∈ l.file.getD [], verifyRelayEntry E.toSigLib e = .ok ()
  /-- Their time stamps. -/
  dated : ∀ e ∈ l.file.getD [], Dated (unix l.clock) e
  /-- No node has two entries in it. -/
  nodup : ((l.file.getD []).map RelayEntry.nodeID).Nodup
  /-- The node has newer ones. -/
  newer : ∀ e ∈ l.file.getD [], (unix l.clock).toInt - e.ts.toInt ≤ 120 →
    ∃ x, l.node.relays.lookup e.nodeID = some x ∧ e.ts ≤ x.ts

theorem inv_start (localAddr : String) : Inv E (start id localAddr) where
  clock := ⟨le_rfl, show (0 : ℤ) < 2 ^ 63 by decide⟩
  store := ⟨[], rfl, fun _ hc ↦ absurd hc List.not_mem_nil⟩
  verified _ he := absurd he List.not_mem_nil
  dated _ he := absurd he List.not_mem_nil
  nodup := List.nodup_nil
  newer _ he := absurd he List.not_mem_nil

namespace Inv

variable (h : l.Inv E)
include h

/-- A clock reading that is not before the last one, in seconds. -/
theorem seconds {now : ℤ} (hn : l.Ticks now) : (unix l.clock).toInt ≤ (unix now).toInt ∧
    0 ≤ (unix now).toInt ∧ (unix now).toInt < 2 ^ 62 := by
  obtain ⟨h₀, hlt⟩ := h.clock
  obtain ⟨hle, hnow⟩ := hn
  rw [toInt_unix h₀ hlt, toInt_unix (by omega) hnow]
  omega

theorem seconds_clock : 0 ≤ (unix l.clock).toInt ∧ (unix l.clock).toInt < 2 ^ 62 :=
  (h.seconds ⟨le_rfl, h.clock.2⟩).2

theorem nodup_store : (l.node.relays.map RelayEntry.nodeID).Nodup := by
  obtain ⟨calls, heq, -⟩ := h.store
  rw [heq]
  exact nodup_after calls

theorem of_mem_store {x : RelayEntry} (hx : x ∈ l.node.relays) :
    verifyRelayEntry E.toSigLib x = .ok () ∧ Dated (unix l.clock) x := by
  obtain ⟨calls, heq, hcalls⟩ := h.store
  rw [heq] at hx
  obtain ⟨c, hc, hacc, rfl⟩ := accepts_of_mem_after hx
  obtain ⟨h₀, hle⟩ := hcalls c hc
  have hlt := h.seconds_clock.2
  obtain ⟨hv, habs⟩ := (accepts_iff _ h₀ (by omega)).mp hacc
  have := abs_le.mp habs
  exact ⟨hv, by omega, by omega⟩

/-- An entry that is given out later is given out now. -/
theorem fresh_of_fresh {e : RelayEntry} (hd : Dated (unix l.clock) e) {now t : ℤ}
    (hn : l.Ticks now) (ht : now ≤ t) (ht' : t < 2 ^ 63) (hfresh : unix t - e.ts ≤ relayTTL) :
    unix now - e.ts ≤ relayTTL := by
  obtain ⟨hle, h₀, hlt⟩ := h.seconds hn
  obtain ⟨hle', h₀', hlt'⟩ := h.seconds (show l.Ticks t from ⟨hn.1.trans ht, ht'⟩)
  rw [hd.fresh_iff hle' h₀' hlt'] at hfresh
  rw [hd.fresh_iff hle h₀ hlt]
  have hsec : (unix now).toInt ≤ (unix t).toInt := by
    have hc := h.clock.1
    have := hn.1
    rw [toInt_unix (by omega) hn.2, toInt_unix (by omega) ht']
    omega
  omega

/-- Later, with the same file and a store that has been added to. -/
theorem later {n : Node} {now : ℤ} (hn : l.Ticks now) {calls : List Call}
    (hrelays : n.relays = l.node.relays.after E.toSigLib calls)
    (hcalls : ∀ c ∈ calls, c.now = unix now) : Inv E { l with node := n, clock := now } := by
  obtain ⟨hle, h₀, hlt⟩ := h.seconds hn
  obtain ⟨old, hold, htimes⟩ := h.store
  have hafter : n.relays = after E.toSigLib [] (old ++ calls) := by
    rw [hrelays, hold, after, after, after, List.foldl_append]
  refine ⟨⟨h.clock.1.trans hn.1, hn.2⟩, ⟨old ++ calls, hafter, fun c hc ↦ ?_⟩, h.verified,
    fun e he ↦ (h.dated e he).mono hle, h.nodup, fun e he hfresh ↦ ?_⟩
  · rcases List.mem_append.mp hc with hc | hc
    · exact ⟨(htimes c hc).1, (htimes c hc).2.trans hle⟩
    · rw [hcalls c hc]
      exact ⟨h₀, le_rfl⟩
  · obtain ⟨x, hx, hts⟩ := h.newer e he (by dsimp only at hfresh; omega)
    rw [hold] at hx
    obtain ⟨y, hy, hxy⟩ := ts_le_of_lookup_after hx calls
    exact ⟨y, (congrArg (lookup · _) hafter).trans hy, Int64.le_trans hts hxy⟩

/-- What a new node has after it has read the file. -/
theorem relays_restart {now : ℤ} {localAddr : String} :
    ((Node.new id localAddr).loadRelays E now (l.file.getD [])).relays =
      (l.file.getD []).filter fun e ↦ Accepts E.toSigLib ⟨unix now, e⟩ := by
  refine (foldl_store ..).trans ?_
  refine (after_of_nodup (s := []) ?_).trans (List.nil_append _)
  exact h.nodup

/-- A new node has all that the file has for it. -/
theorem restart {now : ℤ} (hn : l.Ticks now) (localAddr : String) : Inv E { l with
    node := (Node.new id localAddr).loadRelays E now (l.file.getD []), clock := now } := by
  obtain ⟨hle, h₀, hlt⟩ := h.seconds hn
  refine ⟨⟨h.clock.1.trans hn.1, hn.2⟩, ⟨_, foldl_store .., fun c hc ↦ ?_⟩, h.verified,
    fun e he ↦ (h.dated e he).mono hle, h.nodup, fun e he hfresh ↦ ?_⟩
  · obtain ⟨e, -, rfl⟩ := List.mem_map.mp hc
    exact ⟨h₀, le_rfl⟩
  · refine ⟨e, (lookup_eq_some ?_).mpr ⟨?_, rfl⟩, Int64.le_refl _⟩
    · rw [h.relays_restart]
      exact h.nodup.sublist (List.filter_sublist.map _)
    · rw [h.relays_restart]
      exact List.mem_filter.mpr ⟨he, decide_eq_true
        ((h.dated e he).accepts (h.verified e he) hle h₀ hlt hfresh)⟩

/-- The file that is written, or the one that is left. -/
theorem save {now : ℤ} (hn : l.Ticks now) {entries : List RelayEntry}
    (hperm : entries.Perm (l.node.relays.all (unix now))) : Inv E { l with
      file := if entries = [] then l.file else some entries, clock := now } := by
  have hlater : Inv E { l with clock := now } :=
    h.later hn (show l.node.relays = l.node.relays.after E.toSigLib [] from rfl)
      fun _ hc ↦ absurd hc List.not_mem_nil
  split
  · exact hlater
  have hmem : ∀ {e}, e ∈ entries → e ∈ l.node.relays := fun he ↦
    List.mem_of_mem_filter (hperm.mem_iff.mp he)
  refine ⟨hlater.clock, hlater.store, fun e he ↦ (hlater.of_mem_store (hmem he)).1,
    fun e he ↦ (hlater.of_mem_store (hmem he)).2, ?_, fun e he _ ↦
      ⟨e, (lookup_eq_some h.nodup_store).mpr ⟨hmem he, rfl⟩, Int64.le_refl _⟩⟩
  exact ((hperm.map _).nodup_iff).mpr (h.nodup_store.sublist (List.filter_sublist.map _))

end Inv

theorem inv_step {e : Event} (h : l.Inv E) (hs : l.step E id e = some l') : l'.Inv E := by
  cases e with
  | input i =>
    rw [step, Option.ite_none_right_eq_some, Option.map_eq_some_iff] at hs
    obtain ⟨htime, n, hn, rfl⟩ := hs
    obtain ⟨calls, hrelays, hcalls⟩ := relays_input_timed hn
    cases hi : i.time with
    | none =>
      exact h.later (show l.Ticks l.clock from ⟨le_rfl, h.clock.2⟩) hrelays fun c hc ↦ by
        obtain ⟨now, hnow, -⟩ := hcalls c hc
        exact absurd (hi.symm.trans hnow) (Option.some_ne_none _).symm
    | some now =>
      exact h.later (htime now hi) hrelays fun c hc ↦ by
        obtain ⟨now', hnow, heq⟩ := hcalls c hc
        rw [heq, Option.some.inj (hi.symm.trans hnow), Option.getD_some]
  | save now entries =>
    rw [step, Option.ite_none_right_eq_some] at hs
    obtain ⟨⟨hn, hperm⟩, hs⟩ := hs
    rw [← Option.some.inj hs]
    exact h.save hn hperm
  | restart now localAddr =>
    rw [step, Option.ite_none_right_eq_some] at hs
    obtain ⟨hn, hs⟩ := hs
    rw [← Option.some.inj hs]
    exact h.restart hn localAddr

/-! ### What the file is worth -/

/-- From now on the file is as good as a store. -/
def Saved (s : RelayStore) (l : Life) : Prop :=
  ∀ t, l.clock ≤ t → t < 2 ^ 63 → (all (unix t) (l.file.getD [])).Perm (s.all (unix t))

/-- Right after the file has been saved it is as good as the store, even if nothing was written
because there was nothing to save. -/
theorem saved_of_save {now : ℤ} {entries : List RelayEntry} (h : l.Inv E)
    (hs : l.step E id (.save now entries) = some l') : Saved l.node.relays l' := by
  rw [step, Option.ite_none_right_eq_some] at hs
  obtain ⟨⟨hn, hperm⟩, hs⟩ := hs
  rw [← Option.some.inj hs]
  intro t ht ht'
  have hstore : all (unix t) (all (unix now) l.node.relays) = all (unix t) l.node.relays := by
    rw [all, all, all, List.filter_filter]
    refine List.filter_congr fun e he ↦ ?_
    rw [Bool.and_eq_left_iff_imp]
    exact fun hfresh ↦ decide_eq_true
      (h.fresh_of_fresh (h.of_mem_store he).2 hn ht ht' (of_decide_eq_true hfresh))
  rw [← hstore]
  dsimp only
  split
  · -- nothing was worth saving, so nothing in the old file is
    rename_i hnil
    rw [hnil] at hperm
    rw [← hperm.nil_eq]
    refine List.Perm.of_eq (List.filter_eq_nil_iff.mpr fun e he hfresh ↦ ?_)
    have hnow := h.fresh_of_fresh (h.dated e he) hn ht ht' (of_decide_eq_true hfresh)
    obtain ⟨hle, h₀, hlt⟩ := h.seconds hn
    rw [(h.dated e he).fresh_iff hle h₀ hlt] at hnow
    obtain ⟨x, hx, hts⟩ := h.newer e he (by omega)
    have hmem := List.mem_of_find?_eq_some hx
    have hx' : x ∈ l.node.relays.all (unix now) := by
      refine List.mem_filter.mpr ⟨hmem, decide_eq_true ?_⟩
      rw [(h.of_mem_store hmem).2.fresh_iff hle h₀ hlt]
      have := Int64.le_iff_toInt_le.mp hts
      omega
    rw [← hperm.nil_eq] at hx'
    exact absurd hx' List.not_mem_nil
  · exact hperm.filter _

theorem clock_le_of_step {e : Event} (hs : l.step E id e = some l') : l.clock ≤ l'.clock := by
  cases e with
  | input i =>
    rw [step, Option.ite_none_right_eq_some, Option.map_eq_some_iff] at hs
    obtain ⟨htime, n, -, rfl⟩ := hs
    cases hi : i.time with
    | none => exact le_rfl
    | some now => exact (htime now hi).1
  | save now entries =>
    rw [step, Option.ite_none_right_eq_some] at hs
    rw [← Option.some.inj hs.2]
    exact hs.1.1.1
  | restart now localAddr =>
    rw [step, Option.ite_none_right_eq_some] at hs
    rw [← Option.some.inj hs.2]
    exact hs.1.1

theorem file_of_step {e : Event} (he : e.isSave = false) (hs : l.step E id e = some l') :
    l'.file = l.file := by
  cases e with
  | input i =>
    rw [step, Option.ite_none_right_eq_some, Option.map_eq_some_iff] at hs
    obtain ⟨-, n, -, rfl⟩ := hs
    rfl
  | save now entries => exact absurd he Bool.noConfusion
  | restart now localAddr =>
    rw [step, Option.ite_none_right_eq_some] at hs
    rw [← Option.some.inj hs.2]

theorem Saved.exec {s : RelayStore} {es : List Event} (h : Saved s l)
    (hes : ∀ e ∈ es, e.isSave = false) (hrun : Trace.exec (step E id) l es = some l') :
    Saved s l' := by
  induction es generalizing l with
  | nil => exact Option.some.inj hrun ▸ h
  | cons e es ih =>
    obtain ⟨m, hm, hrest⟩ := Trace.exec_cons_eq_some.mp hrun
    refine ih (fun t ht ht' ↦ ?_) (fun e he ↦ hes e (List.mem_cons_of_mem _ he)) hrest
    rw [file_of_step (hes e (List.mem_cons_self ..)) hm]
    exact h t ((clock_le_of_step hm).trans ht) ht'

/-- **The relays survive a restart.**  Whatever happens before the file is saved, and after it
except that it is saved again, further restarts included: at any later time the node that is started
now gives out the entries that the node which saved the file would give out at that time. -/
theorem relays_restored {localAddr localAddr' : String} {before between : List Event}
    {l₁ l₂ l₃ l₄ : Life} {now now' : ℤ} {entries : List RelayEntry}
    (hbefore : Trace.exec (step E id) (start id localAddr) before = some l₁)
    (hsave : l₁.step E id (.save now entries) = some l₂)
    (hbetween : Trace.exec (step E id) l₂ between = some l₃)
    (hno : ∀ e ∈ between, e.isSave = false)
    (hrestart : l₃.step E id (.restart now' localAddr') = some l₄)
    {t : ℤ} (ht : now' ≤ t) (ht' : t < 2 ^ 63) :
    (l₄.node.relays.all (unix t)).Perm (l₁.node.relays.all (unix t)) := by
  have hinv₁ : l₁.Inv E := Trace.inv_of_exec inv_step (inv_start localAddr) hbefore
  have hinv₃ : l₃.Inv E := Trace.inv_of_exec inv_step (inv_step hinv₁ hsave) hbetween
  have hsaved := (saved_of_save hinv₁ hsave).exec hno hbetween
  rw [step, Option.ite_none_right_eq_some] at hrestart
  obtain ⟨hn, hrestart⟩ := hrestart
  rw [← Option.some.inj hrestart]
  refine List.Perm.trans (List.Perm.of_eq ?_) (hsaved t (hn.1.trans ht) ht')
  dsimp only
  rw [hinv₃.relays_restart, all, all, List.filter_filter]
  refine List.filter_congr fun e he ↦ ?_
  rw [Bool.and_eq_left_iff_imp]
  intro hfresh
  obtain ⟨hle, h₀, hlt⟩ := hinv₃.seconds hn
  have hnow := hinv₃.fresh_of_fresh (hinv₃.dated e he) hn ht ht' (of_decide_eq_true hfresh)
  rw [(hinv₃.dated e he).fresh_iff hle h₀ hlt] at hnow
  exact decide_eq_true ((hinv₃.dated e he).accepts (hinv₃.verified e he) hle h₀ hlt hnow)

/-- An environment in which every signature verifies. -/
def openEnv : Env := { demoEnv with toSigLib := openLib }

/-- Two entries are learnt and saved, and the node is restarted twice; after that the older one is
too old. -/
theorem relays_restored_twice :
    ∃ l₁ l₂ l₃ l₄,
      Trace.exec (step openEnv zeroID) (start zeroID "198.51.100.1:4000")
        [.input (.relays 1000000000000 [entryOf 'a' 990, entryOf 'b' 1000])] = some l₁ ∧
      l₁.step openEnv zeroID
        (.save 1001000000000 [entryOf 'b' 1000, entryOf 'a' 990]) = some l₂ ∧
      Trace.exec (step openEnv zeroID) l₂
        [.restart 1050000000000 "198.51.100.1:4001"] = some l₃ ∧
      l₃.step openEnv zeroID (.restart 1100000000000 "198.51.100.1:4002") =
        some l₄ ∧
      (l₄.node.relays.all (unix 1115000000000)).Perm (l₁.node.relays.all (unix 1115000000000)) ∧
      l₄.node.relays = [entryOf 'b' 1000, entryOf 'a' 990] ∧
      l₄.node.relays.all (unix 1115000000000) = [entryOf 'b' 1000] := by
  have hrun : (Trace.exec (step openEnv zeroID)
      (start zeroID "198.51.100.1:4000")
      ([.input (.relays 1000000000000 [entryOf 'a' 990, entryOf 'b' 1000])] ++
        (.save 1001000000000 [entryOf 'b' 1000, entryOf 'a' 990] ::
          ([.restart 1050000000000 "198.51.100.1:4001"] ++
            [.restart 1100000000000 "198.51.100.1:4002"])))).map
      (fun l ↦ (l.node.relays, l.node.relays.all (unix 1115000000000))) =
        some ([entryOf 'b' 1000, entryOf 'a' 990], [entryOf 'b' 1000]) := by
    decide +kernel
  obtain ⟨l₄, h, hl₄⟩ := Option.map_eq_some_iff.mp hrun
  obtain ⟨l₁, h₁, h⟩ := Trace.exec_append.mp h
  obtain ⟨l₂, h₂, h⟩ := Trace.exec_cons_eq_some.mp h
  obtain ⟨l₃, h₃, h⟩ := Trace.exec_append.mp h
  obtain ⟨l, h₄, h⟩ := Trace.exec_cons_eq_some.mp h
  rw [Trace.exec_nil, Option.some_inj] at h
  rw [h] at h₄
  refine ⟨l₁, l₂, l₃, l₄, h₁, h₂, h₃, h₄, ?_, congrArg Prod.fst hl₄, congrArg Prod.snd hl₄⟩
  exact relays_restored h₁ h₂ h₃ (by decide) h₄ (by decide) (by decide)

end Life

end TunnelCat.Dht
