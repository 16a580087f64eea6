import TunnelCat.Cidr.CIDRSet
import TunnelCat.Lib.IPText
import TunnelCat.Lib.Trace
import TunnelCat.Socks.Request

/-!
# Addresses that are not to bypass the tunnel

Traffic to the country of the client goes around the tunnel.  Where that does not work,
`RecordBypassFailure` remembers the address for 30 minutes, and `ShouldBypass` says no for it.

They do not agree on what an address is.  `RecordBypassFailure` puts it into `failedIPs` under the
text it was given; `ShouldBypass` parses its text and looks for the one that `IP.String` writes.  So
a failure that was recorded for `2001:DB8::1` or for `::ffff:1.2.3.4` is never found.

Both run in many goroutines, and `failedIPs` is a `sync.Map`: each access to it is atomic, but a
call makes more than one.  A `ShouldBypass` that has found an old entry deletes whatever is there
when it comes to it, and a `RecordBypassFailure` stores the time it has read before.
`BypassManager` is the manager with all the calls to it, `step` moves one of them by one access, and
`Quiet` says that no other call stands between two of its accesses for an address.

`remembered_iff` is for every text of an address: failures that are recorded for it are remembered,
in every run and whatever the spelling they are asked for, exactly if the text is the one that
`IP.String` writes.
-/

set_option autoImplicit false

open AddrText Function Trace

namespace TunnelCat.Bypass

/-! ## The manager -/

/-- `30 * time.Minute`, in nanoseconds. -/
def thirtyMinutes : ℤ := 30 * 60 * 1000000000

/-- What `mu` protects, as far as `ShouldBypass` reads it. -/
structure Config where
  /-- `enabled`. -/
  enabled : Bool
  /-- `cidrs`. -/
  cidrs : Option Cidr.CIDRSet
  /-- `country`. -/
  country : String

/-- The host of an address, with or without a port. -/
def hostOf (addr : Bytes) : Bytes :=
  match HostPort.splitHostPort Marks.bytes addr with
  | .ok (host, _) => host
  | .error _ => addr

/-- `strings.HasSuffix`. -/
def hasSuffix (s suffix : String) : Bool := suffix.toList.isSuffixOf s.toList

/-- `tldCountry`. -/
def tldCountry (fqdn : String) : String :=
  let f := if hasSuffix fqdn "." then String.ofList fqdn.toList.dropLast else fqdn
  if hasSuffix f ".ru" then "RU" else if hasSuffix f ".cn" then "CN" else ""

/-- The address that `ShouldBypass` is about: the host itself, or the first one that `LookupHost`
returns for it. -/
def resolve (addr : Bytes) (lookup : List Bytes) : Option Bytes :=
  match parseIP (hostOf addr) with
  | some ip => some ip
  | none => lookup.head?.bind parseIP

/-- The end of `ShouldBypass`, with what the DNS cache has for the address. -/
def route (c : Config) (ip : Bytes) (fqdn : String) : Bool :=
  if c.country ≠ "" ∧ fqdn ≠ "" ∧ tldCountry fqdn ≠ "" then tldCountry fqdn = c.country
  else
    match c.cidrs with
    | none => false
    | some s => if s.starts4.length + s.starts6.length = 0 then false else s.contains ip

/-- Where a `ShouldBypass` is. -/
inductive ShouldPc where
  /-- At its beginning. -/
  | start
  /-- Before it looks the address up. -/
  | load (c : Config) (ip : Bytes)
  /-- It has found an entry, and looks at the clock. -/
  | found (c : Config) (ip : Bytes) (exp : ℤ)
  /-- The entry is old, and it is about to delete it. -/
  | delete (c : Config) (ip : Bytes)
  /-- The address has not failed. -/
  | route (c : Config) (ip : Bytes)
  /-- It has returned. -/
  | done (answer : Bool)

/-- Where a `RecordBypassFailure` is. -/
inductive RecordPc where
  /-- At its beginning. -/
  | start
  /-- It has read this time, and is about to store the entry. -/
  | store (now : ℤ)
  /-- It has returned. -/
  | done

/-- A call. -/
inductive Call where
  /-- `ShouldBypass`. -/
  | shouldBypass (addr : Bytes) (pc : ShouldPc)
  /-- `RecordBypassFailure`. -/
  | recordBypassFailure (addr : Bytes) (pc : RecordPc)

/-- A `BypassManager`, and all the calls to it. -/
structure BypassManager where
  /-- What `mu` protects. -/
  config : Config
  /-- `failedIPs`. -/
  failedIPs : Bytes → Option ℤ
  /-- The clock, as it has been read last. -/
  clock : ℤ
  /-- The calls. -/
  calls : List Call

/-- What a call can do, with what its environment answers. -/
inductive CallEvent where
  /-- Read what `mu` protects, and parse the address; `LookupHost` returns this. -/
  | parse (lookup : List Bytes)
  /-- `failedIPs.Load`. -/
  | load
  /-- `time.Now()`. -/
  | now (t : ℤ)
  /-- `failedIPs.Delete`. -/
  | delete
  /-- `GlobalDNSCache.Get` returns this. -/
  | cached (fqdn : String)
  /-- `failedIPs.Store`. -/
  | store

/-- What can happen. -/
inductive Event where
  /-- Bypassing is switched on or off, or the networks or the country have been loaded. -/
  | configure (c : Config)
  /-- `ShouldBypass` is called. -/
  | shouldBypass (addr : Bytes)
  /-- `RecordBypassFailure` is called. -/
  | recordBypassFailure (addr : Bytes)
  /-- A call moves. -/
  | run (i : ℕ) (e : CallEvent)

namespace BypassManager

/-- The manager as it is made. -/
def new : BypassManager := ⟨⟨true, none, ""⟩, fun _ ↦ none, 0, []⟩

/-- `ShouldBypass` moves. -/
def shouldStep (m : BypassManager) (addr : Bytes) : ShouldPc → CallEvent →
    Option (BypassManager × ShouldPc)
  | .start, .parse lookup =>
    if !m.config.enabled then some (m, .done false)
    else
      match resolve addr lookup with
      | none => some (m, .done false)
      | some ip => some (m, .load m.config ip)
  | .load c ip, .load =>
    match m.failedIPs (Socks.ipString ip) with
    | some exp => some (m, .found c ip exp)
    | none => some (m, .route c ip)
  | .found c ip exp, .now t =>
    if t < m.clock then none
    else some ({ m with clock := t }, if t < exp then .done false else .delete c ip)
  | .delete c ip, .delete =>
    some ({ m with failedIPs := update m.failedIPs (Socks.ipString ip) none }, .route c ip)
  | .route c ip, .cached fqdn => some (m, .done (Bypass.route c ip fqdn))
  | _, _ => none

/-- `RecordBypassFailure` moves. -/
def recordStep (m : BypassManager) (addr : Bytes) : RecordPc → CallEvent →
    Option (BypassManager × RecordPc)
  | .start, .now t =>
    -- names are not remembered, and the clock is not read
    if parseIP (hostOf addr) = none then some (m, .done)
    else if t < m.clock then none
    else some ({ m with clock := t }, .store t)
  | .store t, .store =>
    let failedIPs := update m.failedIPs (hostOf addr) (some (t + thirtyMinutes))
    some ({ m with failedIPs := failedIPs }, .done)
  | _, _ => none

/-- Call `i` goes on as `c`. -/
def put (m : BypassManager) (i : ℕ) (c : Call) : BypassManager :=
  { m with calls := m.calls.set i c }

/-- One event. -/
def step (m : BypassManager) : Event → Option BypassManager
  | .configure c => some { m with config := c }
  | .shouldBypass addr => some { m with calls := m.calls ++ [.shouldBypass addr .start] }
  | .recordBypassFailure addr =>
    some { m with calls := m.calls ++ [.recordBypassFailure addr .start] }
  | .run i e =>
    match m.calls[i]? with
    | none => none
    | some (.shouldBypass addr pc) =>
      (m.shouldStep addr pc e).map fun r ↦ r.1.put i (.shouldBypass addr r.2)
    | some (.recordBypassFailure addr pc) =>
      (m.recordStep addr pc e).map fun r ↦ r.1.put i (.recordBypassFailure addr r.2)

end BypassManager

/-! ## Entries that stay -/

/-- The call stands between two of its accesses to the entry of a text. -/
def Call.uses (key : Bytes) : Call → Bool
  | .shouldBypass _ (.found _ ip _) => Socks.ipString ip = key
  | .shouldBypass _ (.delete _ ip) => Socks.ipString ip = key
  | .recordBypassFailure addr (.store _) => hostOf addr = key
  | _ => false

/-- What the call is about to do leaves an entry that is good up to `exp`. -/
def Call.Keeps (key : Bytes) (exp : ℤ) : Call → Prop
  | .shouldBypass _ (.found _ ip exp') => Socks.ipString ip = key → exp ≤ exp'
  | .shouldBypass _ (.delete _ ip) => Socks.ipString ip ≠ key
  | .recordBypassFailure addr (.store t) => hostOf addr = key → exp ≤ t + thirtyMinutes
  | _ => True

/-- The call has not found out anything that would make it say yes for an address. -/
def Call.SaysNo (ip : Bytes) : Call → Prop
  | .shouldBypass addr pc => parseIP (hostOf addr) = some ip →
    match pc with
    | .start => True
    | .load _ ip' => ip' = ip
    | .found _ ip' _ => ip' = ip
    | .delete _ _ => False
    | .route _ _ => False
    | .done answer => answer = false
  | .recordBypassFailure _ _ => True

theorem Call.keeps_of_not_uses {c : Call} {key : Bytes} (h : c.uses key = false) (exp : ℤ) :
    c.Keeps key exp := by
  rw [uses.eq_def] at h
  rw [Keeps.eq_def]
  split at h
  · exact fun hkey ↦ absurd hkey (of_decide_eq_false h)
  · exact of_decide_eq_false h
  · exact fun hkey ↦ absurd hkey (of_decide_eq_false h)
  · trivial

namespace BypassManager

variable {m m' : BypassManager} {addr ip : Bytes} {exp : ℤ} {e : CallEvent}

/-- There is an entry, and it is good up to `exp`. -/
def HasEntry (m : BypassManager) (key : Bytes) (exp : ℤ) : Prop :=
  ∃ exp', m.failedIPs key = some exp' ∧ exp ≤ exp'

/-- What one access of a call can do before `exp`: an entry that is good up to then stays, if the
call leaves it; and then the call leaves it afterwards, and does not find out anything new. -/
structure Access (ip : Bytes) (exp : ℤ) (m m' : BypassManager) (c c' : Call) : Prop where
  calls : m'.calls = m.calls
  clock : m.clock ≤ m'.clock
  entry : m'.clock < exp → c.Keeps (Socks.ipString ip) exp → m.HasEntry (Socks.ipString ip) exp →
    m'.HasEntry (Socks.ipString ip) exp
  keeps : exp ≤ m.clock + thirtyMinutes → m'.clock < exp → c.Keeps (Socks.ipString ip) exp →
    m.HasEntry (Socks.ipString ip) exp → c'.Keeps (Socks.ipString ip) exp
  saysNo : m'.clock < exp → c.Keeps (Socks.ipString ip) exp → m.HasEntry (Socks.ipString ip) exp →
    c.SaysNo ip → c'.SaysNo ip
  /-- A time that is to be stored has been read. -/
  read : ∀ addr t, c' = .recordBypassFailure addr (.store t) → t ≤ m'.clock

/-- An access that leaves the entries and the clock alone. -/
theorem Access.of_looks {c c' : Call}
    (hkeeps : m.HasEntry (Socks.ipString ip) exp → c'.Keeps (Socks.ipString ip) exp)
    (hno : m.HasEntry (Socks.ipString ip) exp → c.SaysNo ip → c'.SaysNo ip)
    (hread : ∀ addr t, c' ≠ .recordBypassFailure addr (.store t)) : Access ip exp m m c c' where
  calls := rfl
  clock := le_refl _
  entry _ _ hm := hm
  keeps _ _ _ hm := hkeeps hm
  saysNo _ _ hm hs := hno hm hs
  read addr t hcall := absurd hcall (hread addr t)

theorem access_shouldStep {pc pc' : ShouldPc} (h : m.shouldStep addr pc e = some (m', pc')) :
    Access ip exp m m' (.shouldBypass addr pc) (.shouldBypass addr pc') := by
  have hread : ∀ addr' t, Call.shouldBypass addr pc' ≠ .recordBypassFailure addr' (.store t) :=
    fun _ _ ↦ by simp
  rw [shouldStep.eq_def] at h
  split at h
  · -- parse
    split at h
    · obtain ⟨rfl, rfl⟩ := Prod.mk.inj (Option.some.inj h)
      exact .of_looks (fun _ ↦ trivial) (fun _ _ _ ↦ rfl) hread
    · split at h
      · obtain ⟨rfl, rfl⟩ := Prod.mk.inj (Option.some.inj h)
        exact .of_looks (fun _ ↦ trivial) (fun _ _ _ ↦ rfl) hread
      · rename_i ip' hip
        obtain ⟨rfl, rfl⟩ := Prod.mk.inj (Option.some.inj h)
        refine .of_looks (fun _ ↦ trivial) (fun _ _ haddr ↦ ?_) hread
        rw [resolve, haddr] at hip
        exact (Option.some.inj hip).symm
  · -- load
    split at h
    · rename_i exp' hexp
      obtain ⟨rfl, rfl⟩ := Prod.mk.inj (Option.some.inj h)
      refine .of_looks (fun hm hkey ↦ ?_) (fun _ hno ↦ hno) hread
      obtain ⟨exp'', hentry, hle⟩ := hm
      rw [hkey, hentry, Option.some_inj] at hexp
      exact hexp ▸ hle
    · rename_i hnone
      obtain ⟨rfl, rfl⟩ := Prod.mk.inj (Option.some.inj h)
      refine .of_looks (fun _ ↦ trivial) (fun hm hno haddr ↦ ?_) hread
      obtain ⟨exp'', hentry, -⟩ := hm
      rw [hno haddr, hentry] at hnone
      exact absurd hnone (by simp)
  · -- now
    split at h
    · exact absurd h (by simp)
    · rename_i c ip' exp' t hclock
      obtain ⟨rfl, rfl⟩ := Prod.mk.inj (Option.some.inj h)
      refine ⟨rfl, Int.not_lt.mp hclock, fun _ _ hm ↦ hm, fun _ ht hkeeps _ ↦ ?_,
        fun ht hkeeps _ hno haddr ↦ ?_, fun _ _ hcall ↦ absurd hcall (hread _ _)⟩
      · split
        · trivial
        · rename_i hold
          intro hkey
          have hle := hkeeps hkey
          dsimp only at ht
          omega
      · have hle := hkeeps (congrArg _ (hno haddr))
        dsimp only at ht
        rw [if_pos (by omega)]
  · -- delete
    rename_i c ip'
    obtain ⟨rfl, rfl⟩ := Prod.mk.inj (Option.some.inj h)
    refine ⟨rfl, le_refl _, fun _ hkeeps hm ↦ ?_, fun _ _ _ _ ↦ trivial, fun _ _ _ hno ↦ hno,
      fun _ _ hcall ↦ absurd hcall (hread _ _)⟩
    obtain ⟨exp', hentry, hle⟩ := hm
    exact ⟨exp', (update_of_ne (Ne.symm hkeeps) ..).trans hentry, hle⟩
  · -- cached
    obtain ⟨rfl, rfl⟩ := Prod.mk.inj (Option.some.inj h)
    exact .of_looks (fun _ ↦ trivial) (fun _ hno haddr ↦ absurd (hno haddr) id) hread
  · exact absurd h (by simp)

theorem access_recordStep {pc pc' : RecordPc} (h : m.recordStep addr pc e = some (m', pc')) :
    Access ip exp m m' (.recordBypassFailure addr pc) (.recordBypassFailure addr pc') := by
  rw [recordStep.eq_def] at h
  split at h
  · split at h
    · obtain ⟨rfl, rfl⟩ := Prod.mk.inj (Option.some.inj h)
      exact .of_looks (fun _ ↦ trivial) (fun _ _ ↦ trivial) fun _ _ ↦ by simp
    · split at h
      · exact absurd h (by simp)
      · rename_i t _ hclock
        obtain ⟨rfl, rfl⟩ := Prod.mk.inj (Option.some.inj h)
        refine ⟨rfl, Int.not_lt.mp hclock, fun _ _ hm ↦ hm, fun hrecent _ _ _ _ ↦ ?_,
          fun _ _ _ _ ↦ trivial, fun addr' t' hcall ↦ ?_⟩
        · omega
        · simp only [Call.recordBypassFailure.injEq, RecordPc.store.injEq] at hcall
          exact hcall.2.ge
  · rename_i t
    obtain ⟨rfl, rfl⟩ := Prod.mk.inj (Option.some.inj h)
    refine ⟨rfl, le_refl _, fun _ hkeeps hm ↦ ?_, fun _ _ _ _ ↦ trivial, fun _ _ _ _ ↦ trivial,
      fun _ _ hcall ↦ absurd hcall (by simp)⟩
    by_cases hkey : hostOf addr = Socks.ipString ip
    · refine ⟨t + thirtyMinutes, ?_, hkeeps hkey⟩
      rw [hkey]
      exact update_self ..
    · obtain ⟨exp', hentry, hle⟩ := hm
      exact ⟨exp', (update_of_ne (Ne.symm hkey) ..).trans hentry, hle⟩
  · exact absurd h (by simp)

/-- A call that moves. -/
theorem exists_access_of_run (ip : Bytes) (exp : ℤ) {i : ℕ} (h : m.step (.run i e) = some m') :
    ∃ c c' m₁, m.calls[i]? = some c ∧ m' = m₁.put i c' ∧ Access ip exp m m₁ c c' := by
  rw [step] at h
  split at h
  · exact absurd h (by simp)
  · rename_i addr pc hcall
    obtain ⟨⟨m₁, pc'⟩, hstep, rfl⟩ := Option.map_eq_some_iff.mp h
    exact ⟨_, _, m₁, hcall, rfl, access_shouldStep hstep⟩
  · rename_i addr pc hcall
    obtain ⟨⟨m₁, pc'⟩, hstep, rfl⟩ := Option.map_eq_some_iff.mp h
    exact ⟨_, _, m₁, hcall, rfl, access_recordStep hstep⟩

/-- A failure is remembered up to `exp`: there is the entry, every call leaves it, and the calls
since the first `n` say no. -/
structure Remembers (ip : Bytes) (exp : ℤ) (n : ℕ) (m : BypassManager) : Prop where
  recent : exp ≤ m.clock + thirtyMinutes
  entry : m.clock < exp → m.HasEntry (Socks.ipString ip) exp
  keeps : m.clock < exp → ∀ c ∈ m.calls, c.Keeps (Socks.ipString ip) exp
  saysNo : m.clock < exp → ∀ i c, n ≤ i → m.calls[i]? = some c → c.SaysNo ip

/-- A new call is at its beginning. -/
theorem Remembers.append {n : ℕ} (h : Remembers ip exp n m) {c : Call}
    (hkeeps : c.Keeps (Socks.ipString ip) exp) (hno : c.SaysNo ip) :
    Remembers ip exp n { m with calls := m.calls ++ [c] } := by
  refine ⟨h.recent, h.entry, fun hclock d hd ↦ ?_, fun hclock i d hi hd ↦ ?_⟩
  · rcases List.mem_append.mp hd with hd | hd
    · exact h.keeps hclock d hd
    · exact List.mem_singleton.mp hd ▸ hkeeps
  · rw [List.getElem?_append] at hd
    split at hd
    · exact h.saysNo hclock i d hi hd
    · rw [List.getElem?_singleton] at hd
      split at hd
      · exact Option.some.inj hd ▸ hno
      · exact absurd hd (by simp)

theorem remembers_step {n : ℕ} {e : Event} (h : Remembers ip exp n m) (hstep : m.step e = some m') :
    Remembers ip exp n m' := by
  cases e with
  | configure c =>
    rw [← Option.some.inj hstep]
    exact ⟨h.recent, h.entry, h.keeps, h.saysNo⟩
  | shouldBypass addr =>
    rw [← Option.some.inj hstep]
    exact h.append trivial fun _ ↦ trivial
  | recordBypassFailure addr =>
    rw [← Option.some.inj hstep]
    exact h.append trivial trivial
  | run i e =>
    obtain ⟨c, c', m₁, hcall, rfl, haccess⟩ := exists_access_of_run ip exp hstep
    have hmem : c ∈ m.calls := List.mem_of_getElem? hcall
    -- before `exp` it was before `exp`
    have hearly : m₁.clock < exp → m.clock < exp := fun hclock ↦ lt_of_le_of_lt haccess.clock hclock
    have hkeeps : m₁.clock < exp → c.Keeps (Socks.ipString ip) exp := fun hclock ↦
      h.keeps (hearly hclock) c hmem
    refine ⟨?_, fun hclock ↦ ?_, fun hclock d hd ↦ ?_, fun hclock j d hj hd ↦ ?_⟩
    · have hrecent := h.recent
      have hclock := haccess.clock
      show exp ≤ m₁.clock + thirtyMinutes
      omega
    · exact haccess.entry hclock (hkeeps hclock) (h.entry (hearly hclock))
    · rw [put, haccess.calls] at hd
      rcases List.mem_or_eq_of_mem_set hd with hd | rfl
      · exact h.keeps (hearly hclock) d hd
      · exact haccess.keeps h.recent hclock (hkeeps hclock) (h.entry (hearly hclock))
    · rw [put, haccess.calls, List.getElem?_set] at hd
      split at hd
      · rename_i hij
        have hc : c' = d := by
          split at hd
          · exact Option.some.inj hd
          · exact absurd hd (by simp)
        rw [← hc]
        exact haccess.saysNo hclock (hkeeps hclock) (h.entry (hearly hclock))
          (h.saysNo (hearly hclock) i c (hij ▸ hj) hcall)
      · exact h.saysNo (hearly hclock) j d hj hd

/-- The times that calls are about to store have been read. -/
def Read (m : BypassManager) : Prop :=
  ∀ addr t, .recordBypassFailure addr (.store t) ∈ m.calls → t ≤ m.clock

theorem read_step {e : Event} (h : m.Read) (hstep : m.step e = some m') : m'.Read := by
  have hnew : ∀ c, (∀ addr t, c ≠ .recordBypassFailure addr (.store t)) →
      Read { m with calls := m.calls ++ [c] } := by
    intro c hc addr t hmem
    rcases List.mem_append.mp hmem with hmem | hmem
    · exact h addr t hmem
    · exact absurd (List.mem_singleton.mp hmem).symm (hc addr t)
  cases e with
  | configure c =>
    rw [← Option.some.inj hstep]
    exact h
  | shouldBypass addr =>
    rw [← Option.some.inj hstep]
    exact hnew _ fun _ _ ↦ by simp
  | recordBypassFailure addr =>
    rw [← Option.some.inj hstep]
    exact hnew _ fun _ _ ↦ by simp
  | run i e =>
    obtain ⟨c, c', m₁, hcall, rfl, haccess⟩ := exists_access_of_run [] 0 hstep
    intro addr t hmem
    rw [put, haccess.calls] at hmem
    rcases List.mem_or_eq_of_mem_set hmem with hmem | hmem
    · exact (h addr t hmem).trans haccess.clock
    · exact haccess.read addr t hmem.symm

theorem read_exec {es : List Event} (h : exec step new es = some m) : m.Read :=
  Trace.inv_of_exec read_step (fun _ _ hmem ↦ absurd hmem List.not_mem_nil) h

/-! ## The result -/

/-- No other call stands between two accesses to the entry of a text. -/
def Quiet (m : BypassManager) (i : ℕ) (key : Bytes) : Prop :=
  ∀ j c, j ≠ i → m.calls[j]? = some c → c.uses key = false

/-- The failure that call `i` records is remembered: no `ShouldBypass` for the same address that is
called after it says yes, before 30 minutes have passed since call `i` has read the clock. -/
def Remembered (m : BypassManager) (i : ℕ) (t : ℤ) (ip : Bytes) : Prop :=
  ∀ m₁ es m₂ j addr answer, m.step (.run i .store) = some m₁ → exec step m₁ es = some m₂ →
    m₂.clock < t + thirtyMinutes → m₁.calls.length ≤ j →
    m₂.calls[j]? = some (.shouldBypass addr (.done answer)) → parseIP (hostOf addr) = some ip →
    answer = false

theorem remembered_of_eq {i : ℕ} {t : ℤ} {es : List Event} (h : exec step new es = some m)
    (hcall : m.calls[i]? = some (.recordBypassFailure addr (.store t)))
    (hquiet : m.Quiet i (Socks.ipString ip)) (heq : hostOf addr = Socks.ipString ip) :
    m.Remembered i t ip := by
  intro m₁ es m₂ j addr' answer hstore hrun hclock hj hdone hip
  have hstart : Remembers ip (t + thirtyMinutes) m₁.calls.length m₁ := by
    rw [step, hcall] at hstore
    obtain rfl := Option.some.inj hstore
    have hread : t ≤ m.clock := read_exec h addr t (List.mem_of_getElem? hcall)
    refine ⟨Int.add_le_add_right hread _, fun _ ↦ ?_, fun _ c hc ↦ ?_, fun _ k c hk hc ↦ ?_⟩
    · refine ⟨t + thirtyMinutes, ?_, le_refl _⟩
      rw [← heq]
      exact update_self ..
    · obtain ⟨k, hk⟩ := List.mem_iff_getElem?.mp hc
      dsimp only [put] at hk
      rw [List.getElem?_set] at hk
      split at hk
      · split at hk
        · exact Option.some.inj hk ▸ trivial
        · exact absurd hk (by simp)
      · rename_i hki
        exact Call.keeps_of_not_uses (hquiet k c (Ne.symm hki) hk) _
    · exact absurd (List.getElem?_eq_none hk) (by rw [hc]; simp)
  have hend := Trace.inv_of_exec remembers_step hstart hrun
  exact hend.saysNo hclock j _ hj hdone hip

/-- What `IP.String` writes is read. -/
theorem parseIP_ipString (h : ip.length = 16) : parseIP (Socks.ipString ip) = some ip := by
  rw [Socks.ipString]
  split
  · rename_i ip4 hip4
    rw [Assoc.to4, if_neg (by omega)] at hip4
    split at hip4
    · rename_i hmapped
      rw [← Option.some.inj hip4, parseIP_ipv4Text (by rw [List.length_drop, h])]
      have htwelve : mapped (ip.drop 12) = ip.take 12 ++ ip.drop 12 :=
        congrArg (· ++ ip.drop 12) hmapped.2.symm
      rw [htwelve, List.take_append_drop]
    · exact absurd hip4 (by simp)
  · exact parseIP_ipv6Text h

/-- A client in a country whose domains are to bypass the tunnel. -/
def atHome : Config := ⟨true, none, "RU"⟩

/-- A failure is about to be recorded, at time 0. -/
def recording (addr : Bytes) : BypassManager :=
  ⟨atHome, fun _ ↦ none, 0, [.recordBypassFailure addr (.store 0)]⟩

/-- The failure has been recorded. -/
def recorded (addr : Bytes) : BypassManager :=
  ⟨atHome, update (fun _ ↦ none) (hostOf addr) (some thirtyMinutes), 0,
    [.recordBypassFailure addr .done]⟩

/-- The failure has been recorded, and a `ShouldBypass` of the same text is under way. -/
def asking (addr : Bytes) (pc : ShouldPc) : BypassManager :=
  { recorded addr with calls := [.recordBypassFailure addr .done, .shouldBypass addr pc] }

theorem exec_recording (hip : parseIP (hostOf addr) = some ip) :
    exec step new [.configure atHome, .recordBypassFailure addr, .run 0 (.now 0)] =
      some (recording addr) := by
  have hnow : ∀ m : BypassManager, m.clock = 0 →
      m.recordStep addr .start (.now 0) = some ({ m with clock := 0 }, .store 0) := by
    intro m hclock
    rw [recordStep, hip, if_neg (by simp), if_neg (by omega)]
  refine Trace.exec_cons_eq_some.mpr ⟨_, rfl, ?_⟩
  refine Trace.exec_cons_eq_some.mpr ⟨_, rfl, ?_⟩
  refine Trace.exec_cons_eq_some.mpr ⟨_, ?_, exec_nil _⟩
  exact congrArg (Option.map _) (hnow _ rfl)

theorem step_recording (addr : Bytes) :
    (recording addr).step (.run 0 .store) = some (recorded addr) := rfl

theorem step_asking {pc pc' : ShouldPc}
    (h : (asking addr pc).shouldStep addr pc e = some (asking addr pc, pc')) :
    (asking addr pc).step (.run 1 e) = some (asking addr pc') :=
  congrArg (Option.map _) h

/-- The entry is under another text, and is not found. -/
theorem exec_recorded (hip : parseIP (hostOf addr) = some ip)
    (hne : hostOf addr ≠ Socks.ipString ip) :
    exec step (recorded addr) [.shouldBypass addr, .run 1 (.parse []), .run 1 .load,
      .run 1 (.cached "a.ru")] = some (asking addr (.done true)) := by
  have hparse : (asking addr .start).shouldStep addr .start (.parse []) =
      some (asking addr .start, .load atHome ip) := by
    rw [shouldStep, resolve, hip]
    rfl
  have hload : (asking addr (.load atHome ip)).shouldStep addr (.load atHome ip) .load =
      some (asking addr (.load atHome ip), .route atHome ip) := by
    have hnone : (asking addr (.load atHome ip)).failedIPs (Socks.ipString ip) = none :=
      update_of_ne (f := fun _ ↦ none) (Ne.symm hne) _
    rw [shouldStep, hnone]
  have hroute : route atHome ip "a.ru" = true := by
    rw [route, if_pos (by decide)]
    decide
  refine Trace.exec_cons_eq_some.mpr ⟨asking addr .start, rfl, ?_⟩
  refine Trace.exec_cons_eq_some.mpr ⟨_, step_asking hparse, ?_⟩
  refine Trace.exec_cons_eq_some.mpr ⟨_, step_asking hload, ?_⟩
  refine Trace.exec_cons_eq_some.mpr ⟨_, step_asking rfl, ?_⟩
  rw [hroute]
  rfl

/-- **Failures are remembered under every spelling, exactly if they are recorded under the one that
`IP.String` writes.**  Take any text of an address, with or without a port.  Whatever has happened
before and happens after, in every interleaving of the calls and of changes to the configuration: a
failure that is recorded for it while no other call stands between two accesses to the entry makes
every later `ShouldBypass` say no, for every spelling of the same address and as long as 30 minutes
have not passed; exactly if the host in the text is what `IP.String` writes of the address.  This
text is one that is accepted. -/
theorem remembered_iff (addr ip : Bytes) (hip : parseIP (hostOf addr) = some ip) :
    ((∀ es m i t, exec step new es = some m →
        m.calls[i]? = some (.recordBypassFailure addr (.store t)) →
        m.Quiet i (Socks.ipString ip) → m.Remembered i t ip) ↔
      hostOf addr = Socks.ipString ip) ∧
    parseIP (Socks.ipString ip) = some ip := by
  refine ⟨⟨fun h ↦ ?_, fun heq es m i t hrun hcall hquiet ↦ ?_⟩, ?_⟩
  · by_contra hne
    have hquiet : (recording addr).Quiet 0 (Socks.ipString ip) := by
      intro j c hj hc
      rw [recording, List.getElem?_singleton, if_neg hj] at hc
      exact absurd hc (by simp)
    have hearly : (asking addr (.done true)).clock < 0 + thirtyMinutes := by
      show (0 : ℤ) < 0 + thirtyMinutes
      decide
    have hno := h _ _ 0 0 (exec_recording hip) rfl hquiet _ _ _ 1 addr true (step_recording addr)
      (exec_recorded hip hne) hearly (le_refl _) rfl hip
    exact absurd hno (by decide)
  · exact remembered_of_eq hrun hcall hquiet heq
  · exact parseIP_ipString (length_of_parseIP hip)

end BypassManager

namespace Demo

/-- A text. -/
def text (s : String) : Bytes := s.toList.map fun c ↦ UInt8.ofNat c.toNat

/-- `2001:db8::1`. -/
def ip : Bytes := [0x20, 0x01, 0x0d, 0xb8, 0, 0, 0, 0, 0, 0, 0, 0, 0, 0, 0, 1]

/-- A failure is recorded for this text, and then `ShouldBypass` is asked about that one. -/
def failedAndAsked (recorded asked : String) : List Event :=
  [.configure BypassManager.atHome, .recordBypassFailure (text recorded), .run 0 (.now 0),
    .run 0 .store, .shouldBypass (text asked), .run 1 (.parse []), .run 1 .load,
    .run 1 (.cached "a.ru")]

end Demo

namespace BypassManager

/-- In lower case, as `IP.String` writes it, the failure is remembered. -/
theorem remembered_iff_lowerCase :
    parseIP (hostOf (Demo.text "[2001:db8::1]:443")) = some Demo.ip ∧
      ∀ es m i t, exec step new es = some m →
        m.calls[i]? = some (.recordBypassFailure (Demo.text "[2001:db8::1]:443") (.store t)) →
        m.Quiet i (Socks.ipString Demo.ip) → m.Remembered i t Demo.ip :=
  ⟨by decide, (remembered_iff _ Demo.ip (by decide)).1.mpr (by decide)⟩

/-- **In upper case it is not**: with the same text, in the same second, `ShouldBypass` says yes. -/
theorem upperCase_forgotten :
    parseIP (hostOf (Demo.text "[2001:DB8::1]:443")) = some Demo.ip ∧
      ∃ m, exec step new (Demo.failedAndAsked "[2001:DB8::1]:443" "[2001:DB8::1]:443") =
          some m ∧
        m.calls[1]? = some (.shouldBypass (Demo.text "[2001:DB8::1]:443") (.done true)) ∧
        m.clock = 0 :=
  ⟨by decide, _, rfl, rfl, rfl⟩

-- nor is an IPv4 address that was written as one of IPv6
example : (exec step new (Demo.failedAndAsked "[::ffff:1.2.3.4]:80" "1.2.3.4:80")).map
    (fun m ↦ m.calls[1]?) = some (some (.shouldBypass (Demo.text "1.2.3.4:80") (.done true))) := rfl

end BypassManager

end TunnelCat.Bypass
