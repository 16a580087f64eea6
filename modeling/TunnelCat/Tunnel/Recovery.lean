import TunnelCat.Tunnel.ReAuth

/-!
# Taking the re-authentication warning back

The first login that is rejected makes `refreshToken` call `onReAuthWarning`, which shows a warning
to the user; `onReAuthRecovered` is there to take it away again once a login has succeeded.

Whether there is a warning to take away is remembered in `warned`, a variable of the call.  The
mutex is free while a caller sleeps, so the login that succeeds can be that of another goroutine,
which has warned nobody and hence calls no hook; and the caller that did warn finds another token
when it wakes up, and returns without calling a hook either.  The warning stays.

`showing` says, of the callbacks called so far, that a warning has not been taken back.  `Mends` is
the condition on a login that succeeds under such a warning: it is that of a caller that has warned
itself, and the hook is registered.  Under this condition the two hooks keep their promise.
-/

set_option autoImplicit false

open Trace

namespace TunnelCat.ReAuth

/-- The call of `onReAuthWarning` for a token. -/
def warningFor (tok : Bytes) : Invocation := ⟨.warning, tok, none⟩

/-- The call of `onReAuthRecovered` for a token. -/
def recoveredFor (tok : Bytes) : Invocation := ⟨.recovered, tok, none⟩

/-- Among the callbacks called, in this order, there is a warning for the token that was not
followed by a recovery. -/
def showing (tok : Bytes) : List Invocation → Bool
  | [] => false
  | v :: l => showing tok l || v = warningFor tok && !l.contains (recoveredFor tok)

/-- A warning has been taken back, or it is showing. -/
theorem recovered_or_showing {tok : Bytes} {l : List Invocation} {k : ℕ}
    (hk : l[k]? = some (warningFor tok)) :
    (∃ j, k < j ∧ l[j]? = some (recoveredFor tok)) ∨ showing tok l = true := by
  induction l generalizing k with
  | nil => simp at hk
  | cons v l ih =>
    cases k with
    | zero =>
      rw [List.getElem?_cons_zero, Option.some_inj] at hk
      by_cases hmem : recoveredFor tok ∈ l
      · obtain ⟨j, hj⟩ := List.mem_iff_getElem?.mp hmem
        exact .inl ⟨j + 1, Nat.succ_pos j, hj⟩
      · exact .inr (by simp [showing, hk, hmem])
    | succ k =>
      rw [List.getElem?_cons_succ] at hk
      rcases ih hk with ⟨j, hkj, hj⟩ | hshow
      · exact .inl ⟨j + 1, Nat.succ_lt_succ hkj, hj⟩
      · exact .inr (by simp [showing, hshow])

/-- The goroutine is in `refreshToken` for `tok`. -/
def Post.refreshes (tok : Bytes) (p : Post) : Bool :=
  match p.pc with
  | .lock tok' => tok' = tok
  | .login r => r.badToken = tok
  | .sleeping r => r.badToken = tok
  | _ => false

namespace TunnelDialer

variable {E : Env} {td t u v : TunnelDialer} {e : Event} {i : ℕ} {p : Post} (tok : Bytes)

/-- The caller whose login succeeds, as its variables. -/
def succeeds (td : TunnelDialer) : Event → Option Refresh
  | .run i (.login replies cache _) =>
    match td.posts[i]?.map Post.pc, td.auth.login replies cache with
    | some (.login r), .ok _ => some r
    | _, _ => none
  | _ => none

/-- Every `refreshToken` that was called with `tok` has returned. -/
def returned (td : TunnelDialer) (tok : Bytes) : Bool := td.posts.all fun p ↦ !p.refreshes tok

/-- If a login for `tok` succeeds while the warning for it is showing, then the caller has warned
itself and the hook for the recovery is registered. -/
def Mends (td : TunnelDialer) (e : Event) : Prop :=
  ∀ r ∈ td.succeeds e, r.badToken = tok → showing tok td.invoked = true →
    r.warned = true ∧ td.hooks .recovered = true

instance decidableMends (td : TunnelDialer) (e : Event) : Decidable (Mends tok td e) :=
  inferInstanceAs (Decidable (∀ r ∈ td.succeeds e, _))

@[simp] theorem invoked_put : (td.put i p).invoked = td.invoked := rfl

@[simp] theorem invoked_again : (td.again i p).invoked = td.invoked := rfl

@[simp] theorem invoked_holding (mu : Option ℕ) : (td.holding mu).invoked = td.invoked := rfl

@[simp] theorem invoked_crash : td.crash.invoked = td.invoked := rfl

@[simp] theorem invoked_answered (tok : Bytes) (status : ℕ) (raw : Except String Bytes) :
    (td.answered E i p tok status raw).invoked = td.invoked := by
  unfold answered
  repeat' split
  all_goals rfl

theorem invoked_loggedIn_isPrefix (r : Refresh) (now : ℤ) (res : Except AuthError Bytes) :
    td.invoked <+: (td.loggedIn i p r now res).invoked := by
  rcases res with err | new
  · rw [loggedIn]
    dsimp only
    split <;> exact List.prefix_append ..
  · rw [loggedIn]
    dsimp only
    split
    · exact List.prefix_rfl
    · exact List.prefix_append ..

/-- What has been called stays called. -/
theorem invoked_step_isPrefix (h : td.step E e = some t) : td.invoked <+: t.invoked := by
  unfold step at h
  split at h
  · cases h
  cases e with
  | post => cases h; exact List.prefix_rfl
  | adoptToken => cases h; exact List.prefix_rfl
  | setHook => cases h; exact List.prefix_rfl
  | run i pe =>
    obtain ⟨p, hp, hrun⟩ := Option.bind_eq_some_iff.mp h
    unfold runStep at hrun
    split at hrun
    case h_5 =>
      split at hrun
      · cases hrun
      · cases hrun
        exact invoked_loggedIn_isPrefix ..
    all_goals repeat' split at hrun
    all_goals cases hrun
    all_goals simp

theorem invoked_exec_isPrefix {es : List Event} (h : exec (step E) td es = some t) :
    td.invoked <+: t.invoked :=
  Trace.inv_of_exec (P := fun t ↦ td.invoked <+: t.invoked)
    (fun hpre hstep ↦ hpre.trans (invoked_step_isPrefix hstep)) List.prefix_rfl h

/-- A login that succeeds: the process dies of the token's length with the caller still in
`refreshToken`, or the caller takes its own warning back. -/
theorem step_of_succeeds {r : Refresh} (hr : r ∈ u.succeeds e) (h : u.step E e = some v) :
    (v.crashed = true ∧ v.returned r.badToken = false) ∨
      (r.warned = true → u.hooks .recovered = true →
        v.invoked = u.invoked ++ [recoveredFor r.badToken]) := by
  unfold succeeds at hr
  split at hr
  case h_2 => cases hr
  case h_1 i replies cache now =>
    split at hr
    case h_2 => cases hr
    case h_1 r' new hpc hlogin =>
      cases hr
      obtain ⟨p, hp, hpc⟩ := Option.map_eq_some_iff.mp hpc
      unfold step at h
      split at h
      · cases h
      simp only [hp, Option.bind_some, runStep, hpc] at h
      split at h
      · cases h
      rw [Option.some_inj] at h
      subst h
      rw [hlogin, loggedIn]
      dsimp only
      split
      · left
        refine ⟨rfl, ?_⟩
        rw [returned, List.all_eq_false]
        exact ⟨p, List.mem_of_getElem? hp, by simp [Post.refreshes, hpc]⟩
      · right
        intro hwarned hhook
        simp [invoke, hwarned, hhook, recoveredFor]

/-- A process that has died stays as it is. -/
theorem exec_of_crashed (hc : td.crashed = true) {es : List Event}
    (h : exec (step E) td es = some t) : t = td := by
  cases es with
  | nil => rw [exec_nil, Option.some_inj] at h; exact h.symm
  | cons e es =>
    obtain ⟨u, hu, -⟩ := Trace.exec_cons_eq_some.mp h
    simp [step, hc] at hu

/-- **The warning is taken back**: if every login that succeeds under a warning for its token is
that of a caller that has warned itself, with the hook registered, then a warning that was followed
by a successful login has been followed by a recovery when all the callers have returned. -/
theorem recovered_of_mends (auth : Authenticator) {es₁ es₂ : List Event} {k : ℕ}
    (hc : Along (step E) (Mends tok) (new auth) (es₁ ++ e :: es₂))
    (h₁ : exec (step E) (new auth) es₁ = some u) (he : u.step E e = some v)
    (h₂ : exec (step E) v es₂ = some t)
    (hk : u.invoked[k]? = some (warningFor tok))
    (hlogin : (u.succeeds e).map Refresh.badToken = some tok) (hret : t.returned tok = true) :
    ∃ j, k < j ∧ t.invoked[j]? = some (recoveredFor tok) := by
  obtain ⟨r, hr, htok⟩ := Option.map_eq_some_iff.mp hlogin
  have hkeep : ∀ {w : TunnelDialer} {j : ℕ} {x : Invocation}, w.invoked <+: t.invoked →
      w.invoked[j]? = some x → t.invoked[j]? = some x := by
    rintro w j x ⟨l, hl⟩ hj
    rw [← hl, List.getElem?_append_left (List.getElem?_eq_some_iff.mp hj).1, hj]
  have hpost : v.invoked <+: t.invoked := invoked_exec_isPrefix h₂
  rcases recovered_or_showing hk with ⟨j, hkj, hj⟩ | hshow
  · exact ⟨j, hkj, hkeep ((invoked_step_isPrefix he).trans hpost) hj⟩
  · obtain ⟨hwarned, hhook⟩ := hc.of_split h₁ r hr htok hshow
    rcases step_of_succeeds hr he with ⟨hcrash, hin⟩ | hback
    · rw [exec_of_crashed hcrash h₂, ← htok, hin] at hret
      cases hret
    · refine ⟨u.invoked.length, (List.getElem?_eq_some_iff.mp hk).1, hkeep hpost ?_⟩
      rw [hback hwarned hhook, htok]
      exact List.getElem?_concat_length ..

end TunnelDialer

namespace Demo

/-- Another token of eight bytes. -/
def fresh : Bytes := [8, 7, 6, 5, 4, 3, 2, 1]

/-- The two hooks are registered, and the login of the first goroutine is rejected. -/
def warned : List Event := [.setHook .warning true, .setHook .recovered true] ++ unauthorized 0 ++
  unauthorized 1 ++ [.run 0 (.lock 0), rejected 0 1]

/-- The login of goroutine `i` succeeds. -/
def accepted (i : ℕ) : Event := .run i (.login [.ok fresh] (.error rejection) (7 * second))

end Demo

namespace TunnelDialer

/-- The first goroutine wakes up, its login succeeds, and the second one finds the new token. -/
theorem recovered_of_mends_demo :
    ∃ t, exec (step Demo.env) (new Demo.auth)
        ((Demo.warned ++ [.run 0 .wake]) ++ Demo.accepted 0 :: [.run 1 (.lock (8 * second))]) =
          some t ∧
      ∃ j, 0 < j ∧ t.invoked[j]? = some (recoveredFor Demo.token) := by
  have hc : Along (step Demo.env) (Mends Demo.token) (new Demo.auth)
      ((Demo.warned ++ [.run 0 .wake]) ++ Demo.accepted 0 :: [.run 1 (.lock (8 * second))]) := by
    decide +kernel
  have hrun : (exec (step Demo.env) (new Demo.auth) (Demo.warned ++ [.run 0 .wake])).bind
      (fun u ↦ (u.step Demo.env (Demo.accepted 0)).bind fun v ↦
        (exec (step Demo.env) v [.run 1 (.lock (8 * second))]).map fun t ↦
          (u.invoked[0]?, (u.succeeds (Demo.accepted 0)).map Refresh.badToken,
            t.returned Demo.token)) =
      some (some (warningFor Demo.token), some Demo.token, true) := by
    decide +kernel
  obtain ⟨u, hu, hrun⟩ := Option.bind_eq_some_iff.mp hrun
  obtain ⟨v, hv, hrun⟩ := Option.bind_eq_some_iff.mp hrun
  obtain ⟨t, ht, hfacts⟩ := Option.map_eq_some_iff.mp hrun
  simp only [Prod.mk.injEq] at hfacts
  obtain ⟨hwarning, hlogin, hret⟩ := hfacts
  exact ⟨t, Trace.exec_append.mpr ⟨u, hu, Trace.exec_cons_eq_some.mpr ⟨v, hv, ht⟩⟩,
    recovered_of_mends Demo.token Demo.auth hc hu hv ht hwarning hlogin hret⟩

/-- The first goroutine has warned and sleeps, the login of the second one succeeds, and when both
have returned nobody has taken the warning back. -/
theorem warning_stays :
    (exec (step Demo.env) (new Demo.auth) (Demo.warned ++ [.run 1 (.lock (2 * second))])).bind
      (fun u ↦ (u.step Demo.env (Demo.accepted 1)).bind fun v ↦
        (exec (step Demo.env) v [.run 0 .wake]).map fun t ↦
          (u.invoked, (u.succeeds (Demo.accepted 1)).map Refresh.badToken,
            t.returned Demo.token, t.invoked)) =
      some ([warningFor Demo.token], some Demo.token, true, [warningFor Demo.token]) := by
  decide +kernel

end TunnelDialer

end TunnelCat.ReAuth
