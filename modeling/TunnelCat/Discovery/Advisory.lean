import TunnelCat.Discovery.Discoverer

/-!
# What the unsigned fields of a manifest can do

The signature of a manifest covers its type, its time stamp and its nodes.  The other fields are
advisory: whoever passes a manifest on can write anything into them.  Most of them are only returned
next to the addresses.  `excluded` is not: `verify` leaves out the addresses it names, because
clients are to skip nodes that have been decommissioned.

So two manifests with the same signed part need not give the same addresses.  What is true is that
`excluded` can take signed addresses away and nothing else: no unsigned field adds an address or
changes the order, and the lists are equal exactly if the two manifests exclude the same of the
signed addresses (`addrs_eq_iff`).  If nothing is left, the manifest does not pass at all.
-/

set_option autoImplicit false

namespace TunnelCat.Discovery

namespace SignedManifest

/-- The fields that the signature covers, and the signature, are the same. -/
structure SameSigned (m m' : SignedManifest) : Prop where
  /-- `type`. -/
  type : m.type = m'.type
  /-- `ts`. -/
  ts : m.ts = m'.ts
  /-- `nodes`. -/
  nodes : m.nodes = m'.nodes
  /-- `sig`. -/
  sig : m.sig = m'.sig

/-- The addresses that are signed, as far as they are not empty. -/
def signedAddrs (m : SignedManifest) : List String :=
  (m.nodes.map ManifestNode.addr).filter fun a ↦ a ≠ ""

/-- The addresses of a manifest are the signed ones without those that are excluded. -/
theorem addrs_eq_filter (m : SignedManifest) :
    m.addrs = m.signedAddrs.filter fun a ↦ a ∉ m.excluded := by
  rw [addrs, signedAddrs, List.filter_filter]
  refine List.filter_congr fun a _ ↦ ?_
  rw [Bool.decide_and, Bool.and_comm]

end SignedManifest

namespace Discoverer

variable {E : Env} {d : Discoverer} {data data' : Bytes} {m m' : SignedManifest} {v v' : Verified}

/-- Which documents pass. -/
theorem exists_verify_eq_ok_iff (hm : E.unmarshal data = some m) :
    (∃ v, d.verify E data = .ok v) ↔
      m.type = "manifest" ∧ signatureOk E d.pubkey m = true ∧ m.addrs ≠ [] := by
  rw [verify, hm]
  dsimp only
  by_cases htype : m.type = "manifest"
  · by_cases hsig : signatureOk E d.pubkey m = true
    · by_cases haddrs : m.addrs = []
      · simp [htype, hsig, haddrs]
      · simp [htype, hsig, haddrs]
    · simp [htype, hsig]
  · simp [htype]

/-- The signature is checked against the signed part. -/
theorem signatureOk_congr (h : m.SameSigned m') (pubkey : Option Bytes) :
    signatureOk E pubkey m = signatureOk E pubkey m' := by
  rw [signatureOk.eq_def, signatureOk.eq_def, h.type, h.ts, h.nodes, h.sig]

/-- With the signed part of a manifest that passes, a manifest passes as long as an address is
left. -/
theorem exists_verify_of_sameSigned (hm : E.unmarshal data = some m)
    (hm' : E.unmarshal data' = some m') (hsame : m.SameSigned m') (hv : d.verify E data = .ok v) :
    (∃ v', d.verify E data' = .ok v') ↔ m'.addrs ≠ [] := by
  obtain ⟨htype, hsig, -⟩ := (exists_verify_eq_ok_iff hm).mp ⟨v, hv⟩
  rw [exists_verify_eq_ok_iff hm', ← hsame.type, ← signatureOk_congr hsame]
  exact ⟨fun h ↦ h.2.2, fun h ↦ ⟨htype, hsig, h⟩⟩

theorem addrs_of_verify (hm : E.unmarshal data = some m) (hv : d.verify E data = .ok v) :
    v.addrs = m.signedAddrs.filter fun a ↦ a ∉ m.excluded := by
  obtain ⟨m₁, hm₁, -, haddrs⟩ := verify_eq_ok hv
  rw [hm, Option.some_inj] at hm₁
  rw [haddrs, ← hm₁, m.addrs_eq_filter]

/-- **Only `excluded` has a say**: of two manifests that pass and have the same signed part, each
gives the signed addresses that it does not exclude, in their order, and the two lists are the same
exactly if the manifests exclude the same of the signed addresses.  None of the other unsigned
fields matters; and a manifest with this signed part passes as soon as it leaves an address. -/
theorem addrs_eq_iff (hm : E.unmarshal data = some m) (hm' : E.unmarshal data' = some m')
    (hsame : m.SameSigned m') (hv : d.verify E data = .ok v) :
    ((∃ v', d.verify E data' = .ok v') ↔ ∃ a ∈ m.signedAddrs, a ∉ m'.excluded) ∧
      ∀ v', d.verify E data' = .ok v' →
        v.addrs = m.signedAddrs.filter (fun a ↦ a ∉ m.excluded) ∧
        v'.addrs = m.signedAddrs.filter (fun a ↦ a ∉ m'.excluded) ∧
        (v.addrs = v'.addrs ↔ ∀ a ∈ m.signedAddrs, a ∈ m.excluded ↔ a ∈ m'.excluded) := by
  have hsigned : m'.signedAddrs = m.signedAddrs := by
    rw [SignedManifest.signedAddrs, SignedManifest.signedAddrs, hsame.nodes]
  refine ⟨?_, fun v' hv' ↦ ?_⟩
  · rw [exists_verify_of_sameSigned hm hm' hsame hv, m'.addrs_eq_filter, hsigned, ne_eq,
      List.filter_eq_nil_iff]
    simp
  · have haddrs := addrs_of_verify hm hv
    have haddrs' := addrs_of_verify hm' hv'
    rw [hsigned] at haddrs'
    refine ⟨haddrs, haddrs', fun h a ha ↦ ?_, fun h ↦ ?_⟩
    · rw [haddrs, haddrs'] at h
      have hmem := congrArg (a ∈ ·) h
      simp only [List.mem_filter, ha, true_and, decide_eq_true_eq, eq_iff_iff] at hmem
      exact not_iff_not.mp hmem
    · rw [haddrs, haddrs']
      exact List.filter_congr fun a ha ↦ decide_eq_decide.mpr (not_congr (h a ha))

/-- A manifest with two nodes, some regions, and nodes to exclude. -/
def demoManifest (regions : List (String × String)) (excluded : List String) : SignedManifest :=
  ⟨"manifest", 1, [⟨"198.51.100.11:443", ""⟩, ⟨"198.51.100.12:443", ""⟩], "c2ln", regions, [], [],
    excluded, []⟩

/-- What is written as it is, is read as it was. -/
theorem decrypt_some (plain enc : Bytes) (h : some plain = some enc) : some enc = some plain :=
  h.symm

/-- An environment with three documents that differ in what is not signed, and one right
signature. -/
def demoEnv : Env where
  unmarshal data :=
    some (demoManifest (if data = [2] then [("198.51.100.12:443", "SE")] else [])
      (if data = [] then [] else ["198.51.100.11:443"]))
  unmarshalError _ := ""
  unmarshalTS _ := 1
  canonical _ _ _ := []
  base64Decode _ := some [1]
  ed25519Verify _ _ sig := sig = [1]
  encrypt := some
  decrypt := some
  decrypt_encrypt := decrypt_some

/-- A discoverer with the key of the arbiter. -/
def demoDiscoverer : Discoverer :=
  ⟨some (List.replicate 32 0), "", [], [], [], [], [], [], .none, false, false, false⟩

/-- Two manifests that exclude the same give the same addresses, whatever their regions. -/
theorem addrs_eq_iff_demo :
    ∃ m m' v v', demoEnv.unmarshal [1] = some m ∧ demoEnv.unmarshal [2] = some m' ∧
      m.regions ≠ m'.regions ∧ demoDiscoverer.verify demoEnv [1] = .ok v ∧
      demoDiscoverer.verify demoEnv [2] = .ok v' ∧ v.addrs = v'.addrs := by
  have hm : demoEnv.unmarshal [1] = some (demoManifest [] ["198.51.100.11:443"]) := rfl
  have hm' : demoEnv.unmarshal [2] =
      some (demoManifest [("198.51.100.12:443", "SE")] ["198.51.100.11:443"]) := rfl
  obtain ⟨v, hv⟩ : ∃ v, demoDiscoverer.verify demoEnv [1] = .ok v := ⟨_, rfl⟩
  obtain ⟨v', hv'⟩ : ∃ v, demoDiscoverer.verify demoEnv [2] = .ok v := ⟨_, rfl⟩
  obtain ⟨-, hall⟩ := addrs_eq_iff hm hm' ⟨rfl, rfl, rfl, rfl⟩ hv
  exact ⟨_, _, v, v', hm, hm', nofun, hv, hv', (hall v' hv').2.2.mpr fun _ _ ↦ Iff.rfl⟩

/-- **An unsigned field takes a control away**: both manifests have the same signed part and pass,
and the second one gives one address less. -/
theorem excluded_steers :
    ∃ m m' v v', demoEnv.unmarshal [] = some m ∧ demoEnv.unmarshal [1] = some m' ∧
      m.SameSigned m' ∧ demoDiscoverer.pubkey ≠ none ∧
      demoDiscoverer.verify demoEnv [] = .ok v ∧ demoDiscoverer.verify demoEnv [1] = .ok v' ∧
      v.addrs = ["198.51.100.11:443", "198.51.100.12:443"] ∧ v'.addrs = ["198.51.100.12:443"] :=
  ⟨_, _, _, _, rfl, rfl, ⟨rfl, rfl, rfl, rfl⟩, nofun, rfl, rfl, rfl, rfl⟩

end Discoverer

end TunnelCat.Discovery
