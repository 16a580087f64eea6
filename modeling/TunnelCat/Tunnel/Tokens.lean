import TunnelCat.Tunnel.ReAuth
import Mathlib.Data.Set.Defs

/-!
# Re-authentication and the length of the token

`refreshToken` writes two lines to the log that show the beginning of a token: of the one that was
rejected, when it goes into its loop, and of the new one, after a login.  Both times the beginning
is `token[:8]`, and there is no check that the token is that long.  A token is whatever the server
calls one: it comes out of the answer to a login or out of the cache of a control, is given to
`NewAuthenticatorWithToken` and `AdoptToken`, and is empty before the first login.

`sliced` is the token whose beginning a step shows, and `SliceFails` says that it is too short, in
which case the process dies (`crashed_of_sliceFails`).  `slices_iff` is for any set of tokens: no
run in which all tokens are in the set has such a step, exactly if they all have eight bytes.

The mutex is not at fault.  A goroutine holds `reAuthMu` exactly while it is at its login (`Held`),
so it has released it wherever `refreshToken` returns; only the panic leaves it behind.
-/

set_option autoImplicit false

open Trace

namespace TunnelCat.ReAuth

/-! ## Where tokens come from -/

/-- A login that succeeds returns a token that came with an answer, or out of the cache. -/
theorem mem_of_firstToken {replies : List (Except AuthError Bytes)} {tok : Bytes}
    (h : firstToken replies = .ok tok) : .ok tok ∈ replies := by
  induction replies with
  | nil => exact absurd h (by simp [firstToken])
  | cons reply replies ih =>
    cases reply with
    | ok tok' =>
      rw [firstToken, Except.ok.injEq] at h
      exact h ▸ List.mem_cons_self ..
    | error err =>
      rw [firstToken] at h
      split at h
      · rename_i tok' hfirst
        rw [Except.ok.injEq] at h
        exact List.mem_cons_of_mem _ (ih (h ▸ hfirst))
      · exact absurd h (by simp)

theorem mem_of_login {auth : Authenticator} {replies : List (Except AuthError Bytes)}
    {cache : Except AuthError Bytes} {tok : Bytes} (h : auth.login replies cache = .ok tok) :
    .ok tok ∈ replies ∨ cache = .ok tok := by
  rw [Authenticator.login] at h
  split at h
  · exact absurd h (by simp)
  · split at h
    · rename_i tok' hfirst
      rw [Except.ok.injEq] at h
      exact .inl (mem_of_firstToken (h ▸ hfirst))
    · split at h
      · split at h
        · exact .inr h
        · exact absurd h (by simp)
      · exact absurd h (by simp)

/-- Every token that the event brings is in `T`. -/
def Event.Issues (T : Set Bytes) : Event → Prop
  | .adoptToken tok => tok ∈ T
  | .run _ (.login replies cache _) =>
    (∀ tok, .ok tok ∈ replies → tok ∈ T) ∧ ∀ tok, cache = .ok tok → tok ∈ T
  | _ => True

/-- The goroutine waits for its login. -/
def Post.atLogin (p : Post) : Bool :=
  match p.pc with
  | .login _ => true
  | _ => false

namespace TunnelDialer

variable {E : Env} {td t : TunnelDialer} {e : Event} {i : ℕ} {p : Post} {T : Set Bytes}

/-- The token changes when one is adopted, and with a login. -/
theorem token_step (h : td.step E e = some t) :
    t.auth.token = td.auth.token ∨ e = .adoptToken t.auth.token ∨
      ∃ i replies cache now, e = .run i (.login replies cache now) ∧
        td.auth.login replies cache = .ok t.auth.token := by
  rw [step.eq_def] at h
  split at h
  · cases h
  cases e with
  | post => cases h; exact .inl rfl
  | adoptToken => cases h; exact .inr (.inl rfl)
  | setHook => cases h; exact .inl rfl
  | run i pe =>
    obtain ⟨p, hp, hrun⟩ := Option.bind_eq_some_iff.mp h
    rw [runStep.eq_def] at hrun
    split at hrun
    case h_3 tok status raw hpc =>
      cases hrun
      left
      rw [answered.eq_def]
      repeat' split
      all_goals rfl
    case h_5 r replies cache now hpc =>
      split at hrun
      · cases hrun
      · cases hrun
        cases hlogin : td.auth.login replies cache with
        | ok tok =>
          refine .inr (.inr ⟨i, replies, cache, now, rfl, hlogin.trans ?_⟩)
          rw [loggedIn]
          dsimp only
          split <;> rfl
        | error err =>
          left
          rw [loggedIn]
          dsimp only
          split <;> rfl
    all_goals repeat' split at hrun
    all_goals cases hrun
    all_goals exact .inl rfl

theorem token_mem_step (hT : td.auth.token ∈ T) (he : e.Issues T) (h : td.step E e = some t) :
    t.auth.token ∈ T := by
  rcases token_step h with htok | rfl | ⟨i, replies, cache, now, rfl, hlogin⟩
  · exact htok ▸ hT
  · exact he
  · rcases mem_of_login hlogin with hmem | hcache
    · exact he.1 _ hmem
    · exact he.2 _ hcache

/-! ## The beginnings of tokens -/

/-- The token whose first eight bytes a step shows. -/
def sliced (td : TunnelDialer) : Event → Option Bytes
  | .run i (.lock _) =>
    match td.posts[i]?.map Post.pc with
    | some (.lock tok) => if td.auth.token ≠ tok then none else some tok
    | _ => none
  | .run i (.login replies cache _) =>
    match td.posts[i]?.map Post.pc, td.auth.login replies cache with
    | some (.login _), .ok tok => some tok
    | _, _ => none
  | _ => none

/-- The step takes the first eight bytes of a token that has less. -/
def SliceFails (td : TunnelDialer) (e : Event) : Prop :=
  ∃ tok, td.sliced e = some tok ∧ Outcome.slice tok 0 8 = .panic

theorem slice_eq_panic_iff (tok : Bytes) : Outcome.slice tok 0 8 = .panic ↔ tok.length < 8 := by
  rw [Outcome.slice]
  split
  · rename_i h
    simp only [reduceCtorEq, false_iff, not_lt]
    exact h.2
  · rename_i h
    simp only [true_iff]
    omega

/-- The token is the one that is held, or one that the event brings. -/
theorem mem_of_sliced (hT : td.auth.token ∈ T) (he : e.Issues T) {tok : Bytes}
    (h : td.sliced e = some tok) : tok ∈ T := by
  rw [sliced.eq_def] at h
  split at h
  · split at h
    · split at h
      · exact absurd h (by simp)
      · rename_i heq
        rw [← Option.some.inj h, ← not_ne_iff.mp heq]
        exact hT
    · exact absurd h (by simp)
  · split at h
    · rename_i hlogin
      rw [← Option.some.inj h]
      rcases mem_of_login hlogin with hmem | hcache
      · exact he.1 _ hmem
      · exact he.2 _ hcache
    · exact absurd h (by simp)
  · exact absurd h (by simp)

/-- The process dies of a slice out of range. -/
theorem crashed_of_sliceFails (hfails : td.SliceFails e) (h : td.step E e = some t) :
    t.crashed = true := by
  obtain ⟨tok, hsliced, hpanic⟩ := hfails
  rw [sliced.eq_def] at hsliced
  rw [step.eq_def] at h
  split at h
  · cases h
  split at hsliced
  · rename_i i now
    obtain ⟨p, hp, hrun⟩ := Option.bind_eq_some_iff.mp h
    rw [hp, Option.map_some] at hsliced
    split at hsliced
    · rename_i tok' hpc
      rw [Option.some_inj] at hpc
      split at hsliced
      · exact absurd hsliced (by simp)
      · rename_i heq
        rw [← Option.some.inj hsliced] at hpanic
        rw [runStep.eq_def, hpc] at hrun
        dsimp only at hrun
        rw [if_neg heq, if_pos hpanic] at hrun
        split at hrun
        · cases hrun
        · cases hrun
          rfl
    · exact absurd hsliced (by simp)
  · rename_i i replies cache now
    obtain ⟨p, hp, hrun⟩ := Option.bind_eq_some_iff.mp h
    rw [hp, Option.map_some] at hsliced
    split at hsliced
    · rename_i tok' hpc hlogin
      rw [Option.some_inj] at hpc
      rw [← Option.some.inj hsliced] at hpanic
      rw [runStep.eq_def, hpc] at hrun
      dsimp only at hrun
      rw [hlogin, loggedIn, if_pos hpanic] at hrun
      split at hrun
      · cases hrun
      · cases hrun
        rfl
    · exact absurd hsliced (by simp)
  · exact absurd hsliced (by simp)

/-! ## The mutex -/

/-- `reAuthMu` is held by the goroutine that waits for its login, and by no other. -/
def Held (td : TunnelDialer) : Prop :=
  ∀ i, td.reAuthMu = some i ↔ ∃ p, td.posts[i]? = some p ∧ p.atLogin = true

/-- What goroutine `i`, which was `p`, has done to the mutex. -/
inductive Moved (td t : TunnelDialer) (i : ℕ) (p : Post) : Prop where
  /-- It has brought the process down. -/
  | crash (h : t.crashed = true)
  /-- Nothing, away from its login. -/
  | stay (p' : Post) (hposts : t.posts = td.posts.set i p') (hp : p.atLogin = false)
    (hp' : p'.atLogin = false) (hmu : t.reAuthMu = td.reAuthMu)
  /-- It has taken it and waits for its login. -/
  | take (p' : Post) (hposts : t.posts = td.posts.set i p') (hp : p.atLogin = false)
    (hp' : p'.atLogin = true) (hfree : td.reAuthMu = none) (hmu : t.reAuthMu = some i)
  /-- It has released it after its login. -/
  | release (p' : Post) (hposts : t.posts = td.posts.set i p') (hp : p.atLogin = true)
    (hp' : p'.atLogin = false) (hmu : t.reAuthMu = none)

theorem moved_answered (hp : p.atLogin = false) (tok : Bytes) (status : ℕ)
    (raw : Except String Bytes) : Moved td (td.answered E i p tok status raw) i p := by
  rw [answered.eq_def]
  split
  · exact .stay _ rfl hp rfl rfl
  · split
    · exact .stay _ rfl hp rfl rfl
    · split
      · exact .stay _ rfl hp rfl rfl
      · split
        · exact .crash rfl
        · exact .stay _ rfl hp rfl rfl

theorem moved_loggedIn (hp : p.atLogin = true) (r : Refresh) (now : ℤ)
    (res : Except AuthError Bytes) : Moved td (td.loggedIn i p r now res) i p := by
  cases res with
  | ok tok =>
    rw [loggedIn]
    dsimp only
    split
    · exact .crash rfl
    · exact .release _ rfl hp rfl rfl
  | error err =>
    rw [loggedIn]
    dsimp only
    split
    · exact .release _ rfl hp rfl rfl
    · exact .release _ rfl hp rfl rfl

theorem moved_runStep {pe : PostEvent} (h : td.runStep E i p pe = some t) : Moved td t i p := by
  rw [runStep.eq_def] at h
  split at h
  case h_1 hpc =>
    have hp : p.atLogin = false := by rw [Post.atLogin, hpc]
    split at h
    · cases h; exact .stay _ rfl hp rfl rfl
    · cases h; exact .stay _ rfl hp rfl rfl
    · cases h; exact .crash rfl
  case h_2 hpc =>
    have hp : p.atLogin = false := by rw [Post.atLogin, hpc]
    cases h
    exact .stay _ rfl hp rfl rfl
  case h_3 hpc =>
    cases h
    exact moved_answered (by rw [Post.atLogin, hpc]) ..
  case h_4 hpc =>
    have hp : p.atLogin = false := by rw [Post.atLogin, hpc]
    split at h
    · cases h
    · rename_i hfree
      split at h
      · cases h; exact .stay _ rfl hp rfl rfl
      · split at h
        · cases h; exact .crash rfl
        · cases h; exact .take _ rfl hp rfl (Option.not_isSome_iff_eq_none.mp hfree) rfl
  case h_5 hpc =>
    split at h
    · cases h
    · cases h
      exact moved_loggedIn (by rw [Post.atLogin, hpc]) ..
  case h_6 hpc =>
    have hp : p.atLogin = false := by rw [Post.atLogin, hpc]
    split at h
    · cases h
    · rename_i hfree
      split at h
      · cases h; exact .stay _ rfl hp rfl rfl
      · cases h; exact .take _ rfl hp rfl (Option.not_isSome_iff_eq_none.mp hfree) rfl
  case h_7 => cases h

/-- Who is at a login, after goroutine `i` has moved. -/
theorem atLogin_set_iff (hp : td.posts[i]? = some p) (p' : Post) (j : ℕ) :
    (∃ q, (td.posts.set i p')[j]? = some q ∧ q.atLogin = true) ↔
      if i = j then p'.atLogin = true else ∃ q, td.posts[j]? = some q ∧ q.atLogin = true := by
  obtain ⟨hi, -⟩ := List.getElem?_eq_some_iff.mp hp
  rw [List.getElem?_set]
  split
  · simp only [Option.some.injEq, exists_eq_left']
  · exact Iff.rfl

/-- A goroutine that moves takes and releases the mutex as it comes to its login and leaves it. -/
theorem held_of_moved (hp : td.posts[i]? = some p) (hheld : td.Held) (h : Moved td t i p) :
    t.crashed = true ∨ t.Held := by
  have hi : td.reAuthMu = some i ↔ p.atLogin = true := by
    rw [hheld i, hp]
    simp only [Option.some.injEq, exists_eq_left']
  cases h with
  | crash h => exact .inl h
  | stay p' hposts hpl hpl' hmu =>
    refine .inr fun j ↦ ?_
    rw [hmu, hposts, atLogin_set_iff hp, ← hheld j]
    split
    · rename_i hij
      rw [← hij, hi, hpl, hpl']
    · exact Iff.rfl
  | take p' hposts hpl hpl' hfree hmu =>
    refine .inr fun j ↦ ?_
    rw [hmu, hposts, atLogin_set_iff hp, ← hheld j, hfree, Option.some_inj]
    split
    · rename_i hij
      simp only [hij, hpl']
    · rename_i hij
      simp only [hij, reduceCtorEq]
  | release p' hposts hpl hpl' hmu =>
    refine .inr fun j ↦ ?_
    rw [hmu, hposts, atLogin_set_iff hp, ← hheld j, hi.mpr hpl, Option.some_inj]
    split
    · simp only [hpl', reduceCtorEq, Bool.false_eq_true]
    · rename_i hij
      simp only [hij, reduceCtorEq]

theorem held_step (hheld : td.crashed = true ∨ td.Held) (h : td.step E e = some t) :
    t.crashed = true ∨ t.Held := by
  rw [step.eq_def] at h
  split at h
  · cases h
  rename_i hlive
  have hheld := hheld.resolve_left hlive
  cases e with
  | post path plaintext allowRetry retryOn404 =>
    cases h
    refine .inr fun j ↦ ?_
    rw [hheld j, List.getElem?_append]
    split
    · exact Iff.rfl
    · rename_i hj
      -- the new goroutine has not begun
      rw [List.getElem?_eq_none (Nat.not_lt.mp hj), List.getElem?_singleton]
      split
      · simp [Post.atLogin]
      · exact Iff.rfl
  | adoptToken => cases h; exact .inr hheld
  | setHook => cases h; exact .inr hheld
  | run i pe =>
    obtain ⟨p, hp, hrun⟩ := Option.bind_eq_some_iff.mp h
    exact held_of_moved hp hheld (moved_runStep hrun)

/-- A goroutine holds the mutex exactly while it waits for its login, if the process is alive. -/
theorem held_exec (auth : Authenticator) {es : List Event}
    (h : exec (step E) (new auth) es = some t) : t.crashed = true ∨ t.Held := by
  refine Trace.inv_of_exec (P := fun t ↦ t.crashed = true ∨ t.Held) held_step ?_ h
  exact .inr fun i ↦ by simp [new]

/-! ## The result -/

/-- A client that holds the token, with a request that was answered with a 401. -/
def rejectedWith (tok : Bytes) : TunnelDialer :=
  { new ⟨tok, false, "secret"⟩ with posts := [⟨"/api", [], true, false, .lock tok⟩] }

theorem exec_unauthorized (tok : Bytes) :
    exec (step Demo.env) (new ⟨tok, false, "secret"⟩) (Demo.unauthorized 0) =
      some (rejectedWith tok) := rfl

theorem sliced_rejectedWith (tok : Bytes) (now : ℤ) :
    (rejectedWith tok).sliced (.run 0 (.lock now)) = some tok := if_neg (not_not_intro rfl)

/-- A token that is too short brings the process down at the first 401. -/
theorem exec_short {tok : Bytes} (h : tok.length < 8) :
    exec (step Demo.env) (new ⟨tok, false, "secret"⟩)
        (Demo.unauthorized 0 ++ [.run 0 (.lock 0)]) =
      some ((rejectedWith tok).holding (some 0)).crash := by
  refine Trace.exec_append.mpr ⟨_, exec_unauthorized tok, ?_⟩
  refine Trace.exec_cons_eq_some.mpr ⟨_, ?_, exec_nil _⟩
  exact (if_neg (not_not_intro rfl)).trans (if_pos ((slice_eq_panic_iff tok).mpr h))

/-- **Re-authentication is safe for tokens of eight bytes, and for no others.**  Take any set of
tokens, and the runs in which the token that is held at the beginning, those that are adopted and
those that a login can bring are in it, whatever the requests, the interleaving, the answers and the
clock are.  None of them takes the beginning of a token that is too short, exactly if all tokens of
the set have eight bytes.  The mutex is released wherever `refreshToken` returns: in every run, as
long as the process is alive, it is held exactly by the goroutine that waits for its login. -/
theorem slices_iff (T : Set Bytes) :
    ((∀ (E : Env) (auth : Authenticator) (es : List Event) (t : TunnelDialer), auth.token ∈ T →
        (∀ e ∈ es, e.Issues T) → exec (step E) (new auth) es = some t →
        Along (step E) (fun td e ↦ ¬td.SliceFails e) (new auth) es) ↔
      ∀ tok ∈ T, 8 ≤ tok.length) ∧
    ∀ (E : Env) (auth : Authenticator) (es : List Event) (t : TunnelDialer),
      exec (step E) (new auth) es = some t → t.crashed = false → t.Held := by
  refine ⟨⟨fun h tok htok ↦ ?_, fun h E auth es t hauth hes _ ↦ ?_⟩, fun E auth es t h hlive ↦ ?_⟩
  · by_contra hlen
    have hrun := exec_short (Nat.not_le.mp hlen)
    have halong := h Demo.env ⟨tok, false, "secret"⟩ _ _ htok ?_ hrun
    · refine halong.of_split (exec_unauthorized tok) ⟨tok, sliced_rejectedWith tok 0, ?_⟩
      exact (slice_eq_panic_iff tok).mpr (Nat.not_le.mp hlen)
    · intro e he
      simp only [Demo.unauthorized, List.cons_append, List.nil_append, List.mem_cons,
        List.not_mem_nil, or_false] at he
      rcases he with rfl | rfl | rfl | rfl
      all_goals trivial
  · refine Trace.along_of_inv (P := fun td ↦ td.auth.token ∈ T) ?_ token_mem_step hauth hes
    rintro td e hT he ⟨tok, hsliced, hpanic⟩
    have hlen := h tok (mem_of_sliced hT he hsliced)
    exact absurd ((slice_eq_panic_iff tok).mp hpanic) (Nat.not_lt.mpr hlen)
  · exact (held_exec auth h).resolve_left (by rw [hlive]; exact Bool.false_ne_true)

/-- **A client that has not logged in dies of a 401**, with the mutex held. -/
theorem emptyToken_crashes :
    (exec (step Demo.env) (new ⟨[], false, "secret"⟩)
        (Demo.unauthorized 0 ++ [.run 0 (.lock 0)])).map (fun t ↦ (t.crashed, t.reAuthMu)) =
      some (true, some 0) := rfl

end TunnelDialer

end TunnelCat.ReAuth
