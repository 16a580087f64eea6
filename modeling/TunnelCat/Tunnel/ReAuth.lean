import TunnelCat.Lib.Trace
import TunnelCat.Tunnel.Frame
import TunnelCat.Tunnel.Login

/-!
# Re-authentication by concurrent requests

Every request of the tunnel is a `doPost`: it takes the session token as it is, seals its payload
under the key of that token and posts it.  When the control node answers that it does not know the
session, the goroutine calls `refreshToken` with the token it had used, and tries once more if that
comes back without an error.

Many goroutines can be rejected with the same token.  `refreshToken` lets them in one at a time,
under `reAuthMu`, and those that find another token in place have nothing to do.  But the mutex is
released while a goroutine sleeps between two attempts, and the next one finds the old token still
there and begins a retry loop of its own, with its own back-off, its own deadlines and its own
`warned` flag.

`TunnelDialer` is the state all of them share, `TunnelDialer.step` moves one of them.  An event
names the goroutine and says what its environment answers: the status and body of the response,
the answers to a login, the readings of the clock.  What is recorded is which hooks have been
called, and for which token.

The hook for the fatal error is called in exactly the steps in which a goroutine runs out of *its
own* time (`fatals_step`), so it is called again for the same token whenever a further goroutine
does; `InTime` is the condition that none does, and `fatal_once_iff` is for every run.
-/

set_option autoImplicit false

open Trace

namespace TunnelCat.ReAuth

/-! ## The retry loop -/

/-- One second on the clock, which counts nanoseconds. -/
def second : ℤ := 1000000000

/-- `authRejectWindow`: 3 minutes. -/
def authRejectWindow : ℤ := 3 * 60 * second

/-- `serverErrorWindow`: 3 hours. -/
def serverErrorWindow : ℤ := 3 * 60 * 60 * second

/-- The callbacks of the dialer that belong to re-authentication. -/
inductive Hook where
  /-- `onReAuthWarning`. -/
  | warning
  /-- `onReAuthRecovered`. -/
  | recovered
  /-- `onFatalError`. -/
  | fatal
  deriving DecidableEq, Repr

/-- A callback that was called, in a goroutine of its own. -/
structure Invocation where
  /-- Which one. -/
  hook : Hook
  /-- The `badToken` of the `refreshToken` that called it. -/
  token : Bytes
  /-- The error it was given; the other two hooks take none. -/
  err : Option String
  deriving DecidableEq, Repr

/-- The variables of a `refreshToken` that is past its first check. -/
structure Refresh where
  /-- The token the request was rejected with. -/
  badToken : Bytes
  /-- How long the next sleep is. -/
  backoff : ℤ
  /-- When to give up on rejections; `none` is the zero time, before the first of them. -/
  rejectDeadline : Option ℤ
  /-- When to give up on other errors. -/
  serverDeadline : ℤ
  /-- Whether this call has fired the warning. -/
  warned : Bool
  deriving DecidableEq, Repr

namespace Refresh

/-- The variables as `refreshToken` sets them up, at the time `now`. -/
def init (badToken : Bytes) (now : ℤ) : Refresh :=
  ⟨badToken, 5 * second, none, now + serverErrorWindow, false⟩

/-- `fireWarn`. -/
def fireWarn (r : Refresh) : Refresh × List Hook :=
  ({ r with warned := true }, if r.warned then [] else [.warning])

/-- What happens after a failed login, up to the sleep: the variables, the hooks that are due, and
the error if this was the last attempt. -/
def failed (r : Refresh) (now : ℤ) (err : AuthError) : Refresh × List Hook × Option String :=
  if isAuthRejection err then
    let (r, warn) := r.fireWarn
    let deadline := r.rejectDeadline.getD (now + authRejectWindow)
    let r := { r with rejectDeadline := some deadline }
    if deadline < now then (r, warn ++ [.fatal], some ("re-auth: " ++ err.text))
    else (r, warn, none)
  else if r.serverDeadline < now then
    let (r, warn) := r.fireWarn
    (r, warn ++ [.fatal], some ("re-auth: server unavailable: " ++ err.text))
  else (r, [], none)

/-- The back-off after a sleep. -/
def slept (r : Refresh) : Refresh :=
  if r.backoff < 30 * second then { r with backoff := r.backoff * 2 } else r

end Refresh

/-! ## The goroutines -/

/-- Where a `doPost` is. -/
inductive Pc where
  /-- It has not taken the token yet. -/
  | start
  /-- Its request is under way, with this token. -/
  | posted (token : Bytes)
  /-- It has called `refreshToken` and waits for `reAuthMu`. -/
  | lock (badToken : Bytes)
  /-- It holds `reAuthMu` and waits for `Login`. -/
  | login (r : Refresh)
  /-- It sleeps, or waits for `reAuthMu` after that. -/
  | sleeping (r : Refresh)
  /-- It has returned. -/
  | done (o : Outcome (Option Bytes))
  deriving DecidableEq, Repr

/-- A `doPost`. -/
structure Post where
  /-- The path it posts to. -/
  path : String
  /-- The payload. -/
  plaintext : Bytes
  /-- Whether it may still re-authenticate. -/
  allowRetry : Bool
  /-- Whether a 404 means that the session is unknown. -/
  retryOn404 : Bool
  /-- Where it is. -/
  pc : Pc
  deriving DecidableEq, Repr

/-- What a `doPost` can do, with what its environment answers. -/
inductive PostEvent where
  /-- Take the token and send the request, with this nonce. -/
  | send (nonce : Vector UInt8 12)
  /-- The request could not be made, or got no response, over the UDP relay or over TCP. -/
  | fail (udp : Bool) (err : String)
  /-- The response, and its body as far as it could be read. -/
  | reply (status : ℕ) (raw : Except String Bytes)
  /-- Get the mutex at the beginning of `refreshToken`, at this time. -/
  | lock (now : ℤ)
  /-- `Login` returns, with these answers of its methods and of the cache, at this time. -/
  | login (replies : List (Except AuthError Bytes)) (cache : Except AuthError Bytes) (now : ℤ)
  /-- Get the mutex back after a sleep. -/
  | wake

/-- The `TunnelDialer`, with its `Authenticator` and all the requests it has been asked for. -/
structure TunnelDialer where
  /-- The `Authenticator`, which holds the session token. -/
  auth : Authenticator
  /-- The goroutine that holds `reAuthMu`. -/
  reAuthMu : Option ℕ
  /-- Which callbacks are registered. -/
  hooks : Hook → Bool
  /-- The callbacks that have been called, in this order. -/
  invoked : List Invocation
  /-- The goroutines. -/
  posts : List Post
  /-- The process has died of a panic. -/
  crashed : Bool

/-- What can happen. -/
inductive Event where
  /-- `doPost` is called. -/
  | post (path : String) (plaintext : Bytes) (allowRetry retryOn404 : Bool)
  /-- Goroutine `i` moves. -/
  | run (i : ℕ) (e : PostEvent)
  /-- The token is replaced from outside: `AdoptToken`, or a login over UDP. -/
  | adoptToken (tok : Bytes)
  /-- A callback is registered, or taken away. -/
  | setHook (h : Hook) (on : Bool)

/-- The primitives of `doPost`. -/
structure Env where
  /-- The AEAD behind the frames. -/
  aead : ChaCha20Poly1305
  /-- `sessionKey`, a BLAKE2b hash of the token. -/
  sessionKey : Bytes → Key

namespace TunnelDialer

/-- The dialer as it is made. -/
def new (auth : Authenticator) : TunnelDialer := ⟨auth, none, fun _ ↦ false, [], [], false⟩

/-- Goroutine `i` goes on as `p`. -/
def put (td : TunnelDialer) (i : ℕ) (p : Post) : TunnelDialer :=
  { td with posts := td.posts.set i p }

/-- Goroutine `i` returns from `refreshToken` without an error and calls `doPost` again. -/
def again (td : TunnelDialer) (i : ℕ) (p : Post) : TunnelDialer :=
  td.put i { p with allowRetry := false, pc := .start }

/-- `reAuthMu` is taken by a goroutine, or released. -/
def holding (td : TunnelDialer) (mu : Option ℕ) : TunnelDialer := { td with reAuthMu := mu }

/-- The hooks `hs`, as far as they are registered, are called by a `refreshToken` for `tok`. -/
def invoke (td : TunnelDialer) (hs : List Hook) (tok : Bytes) (err : Option String) :
    TunnelDialer :=
  { td with
    invoked := td.invoked ++ (hs.filter td.hooks).map fun h ↦
      ⟨h, tok, if h = .fatal then err else none⟩ }

/-- The process dies of a panic. -/
def crash (td : TunnelDialer) : TunnelDialer := { td with crashed := true }

/-- A response has come in for a request with the token `tok`. -/
def answered (E : Env) (td : TunnelDialer) (i : ℕ) (p : Post) (tok : Bytes) (status : ℕ)
    (raw : Except String Bytes) : TunnelDialer :=
  if p.allowRetry && (status = 401 || status = 404 && p.retryOn404) then
    td.put i { p with pc := .lock tok }
  else if status ≠ 200 then
    td.put i { p with pc := .done (.err
      ("tunnel POST " ++ p.path ++ ": control HTTP " ++ toString status)) }
  else
    match raw with
    | .error m => td.put i { p with pc := .done (.err m) }
    | .ok raw =>
      match parseResponse E.aead (E.sessionKey tok).1 raw with
      | .panic => td.crash
      | o => td.put i { p with pc := .done o }

/-- `Login` has returned to the `refreshToken` of goroutine `i`, which holds `reAuthMu`. -/
def loggedIn (td : TunnelDialer) (i : ℕ) (p : Post) (r : Refresh) (now : ℤ) :
    Except AuthError Bytes → TunnelDialer
  | .ok tok =>
    let td := { td with auth := { td.auth with token := tok } }
    -- The log line after a login prints `token[:8]`.
    if Outcome.slice tok 0 8 = .panic then td.crash
    else
      ((td.invoke (if r.warned then [.recovered] else []) r.badToken none).holding none).again i p
  | .error err =>
    let (r, hs, ferr) := r.failed now err
    let td := (td.invoke hs r.badToken ferr).holding none
    match ferr with
    | some m => td.put i { p with pc := .done (.err m) }
    | none => td.put i { p with pc := .sleeping r }

/-- Goroutine `i`, which is `p`, moves. -/
def runStep (E : Env) (td : TunnelDialer) (i : ℕ) (p : Post) (e : PostEvent) :
    Option TunnelDialer :=
  match p.pc, e with
  | .start, .send nonce =>
    match sealFrame E.aead nonce (E.sessionKey td.auth.token).1 p.plaintext with
    | .ok _ => some (td.put i { p with pc := .posted td.auth.token })
    | .err m => some (td.put i { p with pc := .done (.err ("seal: " ++ m)) })
    | .panic => some td.crash
  | .posted _, .fail udp err =>
    some (td.put i { p with pc := .done (.err (if udp then "udp-relay: " ++ err else err)) })
  | .posted tok, .reply status raw => some (td.answered E i p tok status raw)
  | .lock tok, .lock now =>
    if td.reAuthMu.isSome then none
    else if td.auth.token ≠ tok then some (td.again i p)
    -- The first log line prints `badToken[:8]`, with the mutex held.
    else if Outcome.slice tok 0 8 = .panic then some (td.holding (some i)).crash
    else some ((td.holding (some i)).put i { p with pc := .login (.init tok now) })
  | .login r, .login replies cache now =>
    if replies.length ≠ td.auth.methods then none
    else some (td.loggedIn i p r now (td.auth.login replies cache))
  | .sleeping r, .wake =>
    if td.reAuthMu.isSome then none
    else if td.auth.token ≠ r.badToken then some (td.again i p)
    else some ((td.holding (some i)).put i { p with pc := .login r.slept })
  | _, _ => none

/-- One event.  Nothing happens any more once the process has died. -/
def step (E : Env) (td : TunnelDialer) (e : Event) : Option TunnelDialer :=
  if td.crashed then none
  else
    match e with
    | .post path plaintext allowRetry retryOn404 =>
      some { td with posts := td.posts ++ [⟨path, plaintext, allowRetry, retryOn404, .start⟩] }
    | .run i e => td.posts[i]?.bind fun p ↦ td.runStep E i p e
    | .adoptToken tok => some { td with auth := { td.auth with token := tok } }
    | .setHook h on => some { td with hooks := Function.update td.hooks h on }

/-- How often the fatal error has been reported for the token. -/
def fatals (td : TunnelDialer) (tok : Bytes) : ℕ :=
  td.invoked.countP fun v ↦ v.hook = .fatal && v.token = tok

end TunnelDialer

/-! ## Running out of time -/

/-- The error comes too late for this caller: a rejection after its `rejectDeadline`, another error
after its `serverDeadline`. -/
def Refresh.expired (r : Refresh) (now : ℤ) (err : AuthError) : Bool :=
  if isAuthRejection err then r.rejectDeadline.any (· < now) else r.serverDeadline < now

section failed

variable (r : Refresh) (now : ℤ) (err : AuthError)

@[simp] theorem Refresh.badToken_failed : (r.failed now err).1.badToken = r.badToken := by
  unfold Refresh.failed Refresh.fireWarn
  split
  · dsimp only
    split <;> rfl
  · split <;> rfl

/-- This was the last attempt, and the fatal hook is due, exactly when the error comes too late.
The first rejection never does: its deadline is three minutes ahead. -/
theorem Refresh.failed_spec :
    (r.failed now err).2.1.count .fatal = (if r.expired now err then 1 else 0) ∧
      (r.failed now err).2.2.isSome = r.expired now err := by
  have hwarn : (r.fireWarn.2).count .fatal = 0 := by
    rw [Refresh.fireWarn]
    split <;> rfl
  rw [Refresh.failed, Refresh.expired]
  split
  · have hexp : r.rejectDeadline.any (fun d ↦ decide (d < now)) =
        decide ((r.rejectDeadline.getD (now + authRejectWindow)) < now) := by
      cases r.rejectDeadline with
      | none => simp [authRejectWindow, second]
      | some d => rfl
    rw [hexp]
    dsimp only
    split <;> simp_all [Refresh.fireWarn]
  · split <;> simp_all

end failed

namespace TunnelDialer

/-- The token of the caller that a failed login finds out of time. -/
def timedOut (td : TunnelDialer) : Event → Option Bytes
  | .run i (.login replies cache now) =>
    match td.posts[i]?.map Post.pc, td.auth.login replies cache with
    | some (.login r), .error err => if r.expired now err then some r.badToken else none
    | _, _ => none
  | _ => none

variable {E : Env} {td t : TunnelDialer} {e : Event} {i : ℕ} {p : Post} (tok : Bytes)

@[simp] theorem fatals_put (p : Post) : (td.put i p).fatals tok = td.fatals tok := rfl

@[simp] theorem fatals_again (p : Post) : (td.again i p).fatals tok = td.fatals tok := rfl

@[simp] theorem fatals_holding (mu : Option ℕ) : (td.holding mu).fatals tok = td.fatals tok := rfl

@[simp] theorem fatals_crash : td.crash.fatals tok = td.fatals tok := rfl

/-- Calling hooks counts if the fatal one is among them, registered, and for this token. -/
theorem fatals_invoke (hs : List Hook) (tok' : Bytes) (err : Option String) :
    (td.invoke hs tok' err).fatals tok =
      td.fatals tok + if tok' = tok ∧ td.hooks .fatal = true then hs.count .fatal else 0 := by
  rw [fatals, invoke, List.countP_append, List.countP_map, List.countP_filter]
  congr 1
  split
  · rename_i h
    rw [List.count_eq_countP]
    refine List.countP_congr fun x _ ↦ ?_
    cases x <;> simp [h]
  · rename_i h
    rw [List.countP_eq_zero]
    intro x _ hx
    cases x <;> simp_all

@[simp] theorem fatals_answered (status : ℕ) (raw : Except String Bytes) (tok' : Bytes) :
    (td.answered E i p tok' status raw).fatals tok = td.fatals tok := by
  unfold answered
  repeat' split
  all_goals rfl

theorem fatals_loggedIn_ok (r : Refresh) (now : ℤ) (new : Bytes) :
    (td.loggedIn i p r now (.ok new)).fatals tok = td.fatals tok := by
  rw [loggedIn]
  dsimp only
  split
  · rfl
  · have hnone : (if r.warned then [Hook.recovered] else []).count .fatal = 0 := by
      split <;> rfl
    rw [fatals_again, fatals_holding, fatals_invoke, hnone, ite_self]
    rfl

theorem fatals_loggedIn_error (r : Refresh) (now : ℤ) (err : AuthError) :
    (td.loggedIn i p r now (.error err)).fatals tok = td.fatals tok +
      if (if r.expired now err then some r.badToken else none) = some tok ∧ td.hooks .fatal = true
      then 1 else 0 := by
  obtain ⟨hcount, -⟩ := r.failed_spec now err
  have hput : (td.loggedIn i p r now (.error err)).fatals tok =
      (td.invoke (r.failed now err).2.1 r.badToken (r.failed now err).2.2).fatals tok := by
    rw [loggedIn]
    dsimp only
    rw [Refresh.badToken_failed]
    split <;> rfl
  rw [hput, fatals_invoke, hcount]
  cases r.expired now err <;> simp

/-- The fatal error is reported in exactly the steps in which a caller is out of time. -/
theorem fatals_step (h : td.step E e = some t) :
    t.fatals tok =
      td.fatals tok + if td.timedOut e = some tok ∧ td.hooks .fatal = true then 1 else 0 := by
  unfold step at h
  split at h
  · cases h
  cases e with
  | post => cases h; rfl
  | adoptToken => cases h; rfl
  | setHook => cases h; rfl
  | run i pe =>
    obtain ⟨p, hp, hrun⟩ := Option.bind_eq_some_iff.mp h
    unfold runStep at hrun
    split at hrun <;> rename_i hpc
    case h_5 r replies cache now =>
      split at hrun
      · cases hrun
      · cases hrun
        simp only [timedOut, hp, Option.map_some, hpc]
        cases td.auth.login replies cache with
        | ok new => rw [fatals_loggedIn_ok]; rfl
        | error err => exact fatals_loggedIn_error tok r now err
    all_goals repeat' split at hrun
    all_goals cases hrun
    all_goals simp [timedOut]

/-! ## One report for one token -/

/-- Once the fatal error has been reported for `tok`, no login that a caller makes for `tok` fails
after the deadline of that caller, as long as the hook is registered. -/
def InTime (td : TunnelDialer) (e : Event) : Prop :=
  0 < td.fatals tok → td.hooks .fatal = true → td.timedOut e ≠ some tok

/-- **The fatal error is reported once** for a token, whatever the interleaving, the answers to the
logins and the clock, if and only if after the report no further caller for that token runs out of
its own time. -/
theorem fatal_once_iff (auth : Authenticator) {es : List Event}
    (h : exec (step E) (new auth) es = some t) :
    t.fatals tok ≤ 1 ↔ Along (step E) (InTime tok) (new auth) es := by
  refine Trace.inv_iff_along (P := fun td ↦ td.fatals tok ≤ 1) ?_ ?_ (Nat.zero_le 1) h
  · intro td e u hle hstep
    rw [fatals_step tok hstep, InTime]
    split
    · rename_i hout
      simp only [hout.1, hout.2, ne_eq, not_true_eq_false, imp_false]
      omega
    · rename_i hout
      exact ⟨fun _ _ hook ho ↦ hout ⟨ho, hook⟩, fun _ ↦ hle⟩
  · intro td e u hstep hle
    have hstep := fatals_step tok hstep
    omega

end TunnelDialer

namespace Demo

/-- An AEAD that does nothing, and one key for every token. -/
def env : Env := ⟨nullAead, fun _ ↦ zeroKey⟩

/-- A token of eight bytes. -/
def token : Bytes := [1, 2, 3, 4, 5, 6, 7, 8]

/-- A client that logs in with its password. -/
def auth : Authenticator := ⟨token, false, "secret"⟩

/-- The control node says that the password is wrong. -/
def rejection : AuthError :=
  ⟨.rejected, "auth rejected: login: status 401: \x7b\"error\":\"invalid credentials\"\x7d"⟩

/-- A request of goroutine `i` is answered with a 401. -/
def unauthorized (i : ℕ) : List Event :=
  [.post "/api" [] true false, .run i (.send (Vector.replicate 12 0)), .run i (.reply 401 (.ok []))]

/-- The login of goroutine `i` is rejected, that many seconds after the first 401. -/
def rejected (i : ℕ) (sec : ℤ) : Event :=
  .run i (.login [.error rejection] (.error rejection) (sec * second))

/-- The seconds at which the first goroutine hears of its later rejections: a login takes one
second, the sleeps before it 5, 10, 20 and then 40 seconds. -/
def later : List ℤ := [7, 18, 39, 80, 121, 162, 203]

/-- One request is rejected, and its goroutine gives up when its three minutes are over. -/
def oneCaller : List Event :=
  [.setHook .fatal true] ++ unauthorized 0 ++ [.run 0 (.lock 0), rejected 0 1] ++
    later.flatMap fun sec ↦ [.run 0 .wake, rejected 0 sec]

/-- Two requests are rejected with the same token.  The second goroutine finds the mutex free while
the first one sleeps, and does everything it does one second later. -/
def twoCallers : List Event :=
  [.setHook .fatal true] ++ unauthorized 0 ++ unauthorized 1 ++
    [.run 0 (.lock 0), rejected 0 1, .run 1 (.lock second), rejected 1 2] ++
    later.flatMap fun sec ↦ [.run 0 .wake, rejected 0 sec, .run 1 .wake, rejected 1 (sec + 1)]

end Demo

namespace TunnelDialer

theorem fatal_once_iff_demo :
    ∃ t, exec (step Demo.env) (new Demo.auth) Demo.oneCaller = some t ∧
      t.fatals Demo.token = 1 ∧
      Along (step Demo.env) (InTime Demo.token) (new Demo.auth) Demo.oneCaller := by
  have hrun : (exec (step Demo.env) (new Demo.auth) Demo.oneCaller).map
      (fatals · Demo.token) = some 1 := by decide +kernel
  obtain ⟨t, ht, hone⟩ := Option.map_eq_some_iff.mp hrun
  exact ⟨t, ht, hone, (fatal_once_iff Demo.token Demo.auth ht).mp hone.le⟩

/-- Two callers that were rejected with the same token both run out of time, and both report it. -/
theorem reported_twice :
    (exec (step Demo.env) (new Demo.auth) Demo.twoCallers).map (fatals · Demo.token) =
      some 2 := by
  decide +kernel

end TunnelDialer

end TunnelCat.ReAuth
