import TunnelCat.Lib.Bytes
import TunnelCat.Lib.Pending
import TunnelCat.Lib.Trace

/-!
# The names of addresses

`ShouldBypass` decides by the name of an address, if it knows it.  The names are learned from the
DNS replies that pass by, and kept in `GlobalDNSCache` for as long as the reply says, but at least
for five minutes and at most for a day.  A goroutine deletes what has expired.  What a reply says is
not part of the model: any call of `Set` may be made at any time.

Each access to the map is atomic, but not more: `Get` looks at the clock after it has released the
lock, and the goroutine before it takes it.  `DnsCache` has any number of calls of `Get`, and the
goroutine, between their accesses.

`get_exact` says that none of this shows, in any run: a `Get` returns what the last `Set` for the
address has stored, if it has not expired when `Get` looks at the clock, and nothing otherwise.
-/

set_option autoImplicit false

open Function

namespace TunnelCat.Bypass

/-! ## The cache -/

/-- What `Set` is called with. -/
structure Learned where
  /-- `ip`. -/
  ip : Bytes
  /-- `fqdn`. -/
  fqdn : String
  /-- `ttl`, in nanoseconds. -/
  ttl : ℤ
deriving DecidableEq

/-- `5 * time.Minute`, in nanoseconds. -/
def minTTL : ℤ := 5 * 60 * 1000000000

/-- `24 * time.Hour`, in nanoseconds. -/
def maxTTL : ℤ := 24 * 60 * 60 * 1000000000

/-- The time that `Set` keeps an entry for. -/
def clampTTL (ttl : ℤ) : ℤ :=
  let ttl := if ttl < minTTL then minTTL else ttl
  if ttl > maxTTL then maxTTL else ttl

/-- `dnsCacheEntry`. -/
structure DnsCacheEntry where
  /-- `fqdn`. -/
  fqdn : String
  /-- `expires`. -/
  expires : ℤ
deriving DecidableEq

/-- A call of `Set`, and when it was made. -/
structure SetCall extends Learned where
  /-- `time.Now()`. -/
  time : ℤ
deriving DecidableEq

/-- A call of `Get`. -/
inductive GetPc where
  /-- At its beginning. -/
  | start
  /-- It has looked into the map.  As a record: how many calls of `Set` there had been. -/
  | found (entry : Option DnsCacheEntry) (seen : ℕ)
  /-- It has returned.  As a record: also when it looked at the clock. -/
  | returned (fqdn : String) (seen : ℕ) (now : ℤ)
deriving DecidableEq

/-- The cache, with the calls. -/
structure DnsCache where
  /-- `m`. -/
  m : Bytes → Option DnsCacheEntry
  /-- The clock. -/
  clock : ℤ
  /-- What the goroutine that deletes has read from the clock, if it is about to take the lock. -/
  sweeper : Option ℤ
  /-- The calls of `Get`, with the address. -/
  gets : List (Bytes × GetPc)
  /-- Record: the calls of `Set`. -/
  sets : List SetCall

namespace DnsCache

/-- `Get` on what it has found. -/
def answer (now : ℤ) (entry : Option DnsCacheEntry) : String :=
  match entry with
  | none => ""
  | some e => if now > e.expires then "" else e.fqdn

/-- What happens. -/
inductive Event where
  /-- Time passes. -/
  | tick (now : ℤ)
  /-- `Set`. -/
  | set (call : Learned)
  /-- The goroutine that deletes looks at the clock. -/
  | wake
  /-- It deletes. -/
  | sweep
  /-- `Get` is called. -/
  | get (ip : Bytes)
  /-- A `Get` goes on. -/
  | run (i : ℕ)

section

variable (toLower : String → String)

/-- The entry that a call of `Set` makes. -/
def entryOf (c : SetCall) : DnsCacheEntry := ⟨toLower c.fqdn, c.time + clampTTL c.ttl⟩

/-- A cache without entries. -/
def empty (clock : ℤ) : DnsCache := ⟨fun _ ↦ none, clock, none, [], []⟩

/-- One step. -/
def step (s : DnsCache) : Event → Option DnsCache
  | .tick now => if s.clock ≤ now then some { s with clock := now } else none
  | .set call =>
    let c : SetCall := ⟨call, s.clock⟩
    some { s with
      m := update s.m call.ip (some (entryOf toLower c)), sets := s.sets ++ [c] }
  | .wake =>
    match s.sweeper with
    | none => some { s with sweeper := some s.clock }
    | some _ => none
  | .sweep =>
    match s.sweeper with
    | none => none
    | some now =>
      some { s with
        m := fun ip ↦ (s.m ip).filter fun e ↦ !decide (now > e.expires)
        sweeper := none }
  | .get ip => some { s with gets := s.gets ++ [(ip, .start)] }
  | .run i =>
    match s.gets[i]? with
    | some (ip, .start) =>
      some { s with gets := s.gets.set i (ip, .found (s.m ip) s.sets.length) }
    | some (ip, .found entry seen) =>
      some { s with gets := s.gets.set i (ip, .returned (answer s.clock entry) seen s.clock) }
    | _ => none

/-! ## What is kept -/

/-- The last of some calls of `Set` for an address. -/
def current (sets : List SetCall) (ip : Bytes) : Option SetCall :=
  sets.reverse.find? fun c ↦ c.ip = ip

/-- An entry, or its absence, is as good as what the last call has stored, from now on. -/
def Agrees (now : ℤ) (last : Option SetCall) (entry : Option DnsCacheEntry) : Prop :=
  ∀ t, now ≤ t → answer t entry = answer t (last.map (entryOf toLower))

theorem current_append (sets : List SetCall) (c : SetCall) (ip : Bytes) :
    current (sets ++ [c]) ip = if c.ip = ip then some c else current sets ip := by
  rw [current, List.reverse_concat, List.find?_cons]
  by_cases h : c.ip = ip
  · rw [if_pos h, decide_eq_true h]
  · rw [if_neg h, decide_eq_false h]
    rfl

variable {toLower} {s t : DnsCache}

variable {last : Option SetCall} {entry : Option DnsCacheEntry}

theorem Agrees.mono {now now' : ℤ} (h : Agrees toLower now last entry) (hle : now ≤ now') :
    Agrees toLower now' last entry :=
  fun t ht ↦ h t (hle.trans ht)

/-- An entry that has expired is as good as none. -/
theorem Agrees.filter {now clock : ℤ} (h : Agrees toLower clock last entry) (hle : now ≤ clock) :
    Agrees toLower clock last (entry.filter fun e ↦ !decide (now > e.expires)) := by
  intro t ht
  rw [← h t ht]
  cases entry with
  | none => rfl
  | some e =>
    by_cases hexp : now > e.expires
    · rw [Option.filter_some_neg (by simpa using hexp), answer, answer, if_pos (by omega)]
    · rw [Option.filter_some_pos (by simpa using hexp)]

/-- What is true of a call of `Get`. -/
def GetOk (toLower : String → String) (s : DnsCache) (ip : Bytes) : GetPc → Prop
  | .start => True
  | .found entry seen => seen ≤ s.sets.length ∧
      Agrees toLower s.clock (current (s.sets.take seen) ip) entry
  | .returned fqdn seen now => seen ≤ s.sets.length ∧
      fqdn = answer now ((current (s.sets.take seen) ip).map (entryOf toLower))

/-- What holds in every state. -/
structure Inv (toLower : String → String) (s : DnsCache) : Prop where
  /-- The map. -/
  kept : ∀ ip, Agrees toLower s.clock (current s.sets ip) (s.m ip)
  /-- The goroutine. -/
  sweeper : ∀ now, s.sweeper = some now → now ≤ s.clock
  /-- The calls. -/
  gets : ∀ g ∈ s.gets, GetOk toLower s g.1 g.2

theorem inv_empty (clock : ℤ) : Inv toLower (empty clock) where
  kept _ _ _ := rfl
  sweeper _ h := by cases h
  gets _ h := by cases h

/-- A call of `Get` is not touched by what the others do. -/
theorem GetOk.mono {ip : Bytes} {pc : GetPc} (h : GetOk toLower s ip pc)
    (hclock : s.clock ≤ t.clock) (hsets : s.sets <+: t.sets) :
    GetOk toLower t ip pc := by
  obtain ⟨new, hnew⟩ := hsets
  have htake {seen : ℕ} (hseen : seen ≤ s.sets.length) : t.sets.take seen = s.sets.take seen := by
    rw [← hnew, List.take_append_of_le_length hseen]
  have hlen : s.sets.length ≤ t.sets.length := by
    rw [← hnew, List.length_append]
    exact Nat.le_add_right ..
  cases pc with
  | start => trivial
  | found entry seen =>
    obtain ⟨hseen, hagrees⟩ := h
    refine ⟨hseen.trans hlen, ?_⟩
    rw [htake hseen]
    exact hagrees.mono hclock
  | returned fqdn seen now =>
    obtain ⟨hseen, hans⟩ := h
    refine ⟨hseen.trans hlen, ?_⟩
    rw [htake hseen]
    exact hans

/-- A call of `Get` goes on. -/
theorem Inv.put {i : ℕ} {ip : Bytes} {pc pc' : GetPc} (h : Inv toLower s)
    (hi : s.gets[i]? = some (ip, pc)) (hok : GetOk toLower s ip pc') :
    Inv toLower { s with gets := s.gets.set i (ip, pc') } where
  kept := h.kept
  sweeper := h.sweeper
  gets g hg := by
    obtain ⟨j, hj⟩ := List.mem_iff_getElem?.mp hg
    rcases (Pending.getElem?_set_eq_some hi).mp hj with ⟨-, rfl⟩ | ⟨-, hold⟩
    · exact hok.mono le_rfl (List.prefix_rfl)
    · exact (h.gets g (List.mem_of_getElem? hold)).mono le_rfl (List.prefix_rfl)

/-- One step keeps the invariant. -/
theorem inv_step {e : Event} (h : Inv toLower s) (hs : s.step toLower e = some t) :
    Inv toLower t := by
  cases e with
  | tick now =>
    rw [step] at hs
    split at hs
    · rename_i hle
      rw [← Option.some_inj.mp hs]
      exact ⟨fun ip ↦ (h.kept ip).mono hle, fun t ht ↦ (h.sweeper t ht).trans hle,
        fun g hg ↦ (h.gets g hg).mono hle (List.prefix_rfl)⟩
    · cases hs
  | set call =>
    rw [← Option.some_inj.mp hs]
    refine ⟨fun ip ↦ ?_, h.sweeper, fun g hg ↦ (h.gets g hg).mono le_rfl (List.prefix_append ..)⟩
    dsimp only
    rw [current_append]
    by_cases hip : call.ip = ip
    · rw [if_pos hip, ← hip, update_self]
      exact fun _ _ ↦ rfl
    · rw [if_neg hip, update_of_ne (Ne.symm hip)]
      exact h.kept ip
  | wake =>
    rw [step] at hs
    split at hs
    · rw [← Option.some_inj.mp hs]
      refine ⟨h.kept, fun now hnow ↦ ?_, fun g hg ↦ (h.gets g hg).mono le_rfl (List.prefix_rfl)⟩
      exact (Option.some_inj.mp hnow).ge
    · cases hs
  | sweep =>
    rw [step] at hs
    split at hs
    · cases hs
    · rename_i now hnow
      rw [← Option.some_inj.mp hs]
      exact ⟨fun ip ↦ (h.kept ip).filter (h.sweeper now hnow), fun _ h ↦ (nomatch h),
        fun g hg ↦ (h.gets g hg).mono le_rfl (List.prefix_rfl)⟩
  | get ip =>
    rw [← Option.some_inj.mp hs]
    refine ⟨h.kept, h.sweeper, fun g hg ↦ ?_⟩
    rcases List.mem_append.mp hg with hg | hg
    · exact (h.gets g hg).mono le_rfl (List.prefix_rfl)
    · rw [List.mem_singleton.mp hg]
      trivial
  | run i =>
    rw [step] at hs
    split at hs
    · rename_i ip hi
      rw [← Option.some_inj.mp hs]
      refine h.put hi ⟨le_rfl, ?_⟩
      rw [List.take_length]
      exact h.kept ip
    · rename_i ip entry seen hi
      rw [← Option.some_inj.mp hs]
      obtain ⟨hseen, hagrees⟩ := h.gets _ (List.mem_of_getElem? hi)
      exact h.put hi ⟨hseen, hagrees s.clock le_rfl⟩
    · cases hs

theorem le_clampTTL (ttl : ℤ) : minTTL ≤ clampTTL ttl ∧ clampTTL ttl ≤ maxTTL := by
  rw [clampTTL, minTTL, maxTTL]
  split_ifs <;> omega

/-- **The cache returns what was stored last.**  In every run, a `Get` that has returned has
returned the name that the last `Set` for its address had stored when it looked into the map, if
that had not expired when it looked at the clock, and nothing if it had or if there was none.  So a
name is found for at least five minutes, and not found after a day. -/
theorem get_exact {clock : ℤ} {es : List Event}
    (h : Trace.exec (step toLower) (empty clock) es = some s) {ip : Bytes} {fqdn : String}
    {seen : ℕ} {now : ℤ} (hg : (ip, GetPc.returned fqdn seen now) ∈ s.gets) :
    (current (s.sets.take seen) ip = none → fqdn = "") ∧
    ∀ c, current (s.sets.take seen) ip = some c →
      fqdn = (if now ≤ c.time + clampTTL c.ttl then toLower c.fqdn else "") ∧
      (now ≤ c.time + minTTL → fqdn = toLower c.fqdn) ∧
      (c.time + maxTTL < now → fqdn = "") := by
  have hinv : Inv toLower s :=
    Trace.inv_of_exec (P := Inv toLower) (fun hinv hs ↦ inv_step hinv hs) (inv_empty clock) h
  obtain ⟨-, hans⟩ := hinv.gets _ hg
  refine ⟨fun hnone ↦ ?_, fun c hc ↦ ?_⟩
  · rw [hans, hnone]
    rfl
  · obtain ⟨hmin, hmax⟩ := le_clampTTL c.ttl
    have heq : fqdn = if now ≤ c.time + clampTTL c.ttl then toLower c.fqdn else "" := by
      rw [hans, hc, Option.map_some, answer]
      by_cases hle : now ≤ c.time + clampTTL c.ttl
      · rw [if_pos hle]
        exact if_neg (not_lt.mpr hle)
      · rw [if_neg hle]
        exact if_pos (not_le.mp hle)
    refine ⟨heq, fun hle ↦ ?_, fun hlt ↦ ?_⟩
    · rw [heq, if_pos (by omega)]
    · rw [heq, if_neg (by omega)]

/-- A name is learned for a second, and looked up after four minutes.  Another `Get` looks into the
map after that, and at the clock when the entry has been deleted. -/
def demoRun : List Event :=
  [.set ⟨[49], "Example.RU.", 1000000000⟩, .tick (4 * 60 * 1000000000), .get [49], .run 0, .run 0,
    .get [49], .run 1, .tick (6 * 60 * 1000000000), .wake, .sweep, .run 1]

theorem exec_demoRun :
    (Trace.exec (step String.toLower) (empty 0) demoRun).map (fun s ↦ (s.gets, s.sets)) =
      some ([([49], .returned "example.ru." 1 240000000000), ([49], .returned "" 1 360000000000)],
        [⟨⟨[49], "Example.RU.", 1000000000⟩, 0⟩]) := by
  decide +kernel

theorem get_exact_demoRun :
    ∃ s c, Trace.exec (step String.toLower) (empty 0) demoRun = some s ∧
      current (s.sets.take 1) [49] = some c ∧
      "example.ru." =
        (if 240000000000 ≤ c.time + clampTTL c.ttl then String.toLower c.fqdn else "") ∧
      "" = if 360000000000 ≤ c.time + clampTTL c.ttl then String.toLower c.fqdn else "" := by
  obtain ⟨s, hs, hsum⟩ := Option.map_eq_some_iff.mp exec_demoRun
  obtain ⟨hgets, hsets⟩ := Prod.mk.inj hsum
  have hc : current (s.sets.take 1) [49] = some ⟨⟨[49], "Example.RU.", 1000000000⟩, 0⟩ := by
    rw [hsets]
    rfl
  have hfirst : ([49], GetPc.returned "example.ru." 1 240000000000) ∈ s.gets := by simp [hgets]
  have hsecond : ([49], GetPc.returned "" 1 360000000000) ∈ s.gets := by simp [hgets]
  exact ⟨s, _, hs, hc, ((get_exact hs hfirst).2 _ hc).1, ((get_exact hs hsecond).2 _ hc).1⟩

end

end DnsCache

end TunnelCat.Bypass
