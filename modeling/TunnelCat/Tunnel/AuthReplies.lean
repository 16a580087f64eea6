import TunnelCat.Lib.JsonValue
import TunnelCat.Tunnel.Login

/-!
# What the answer to a login means

A login is a request over TCP, made by `doKeyAuth` or `doPasswordAuth`, or the same request through
a UDP relay, made by `sendAuthViaUDP`, when TCP is blocked.  The relay passes the status and the
body of the control node's response on, so both ways the answer is a status and a body, and it is a
session token, a rejection (`ErrAuthRejected`) or an arbiter that is away for a moment
(`ErrAuthTransient`).

The two ways do not agree on which of these it is.  Over UDP the status is thrown away: there is no
transient failure, a 503 with `"transient":true` is a rejection, and a session in the body is taken
whatever the status.  And only `doPasswordAuth` looks for the session in `data` as well, and only it
converts the whole body, which fails on a number that is too large.  `Understood` says which answers
are understood alike.
-/

set_option autoImplicit false

namespace TunnelCat

/-- JSON syntax and the texts that error messages are put together from. -/
structure JsonText where
  /-- The value the bytes denote, if they are JSON text. -/
  parse : Bytes → Option Json.Value
  /-- What `json.Unmarshal` has to say about bytes it does not take. -/
  unmarshalError : Bytes → String
  /-- The bytes as they are printed with `%s`. -/
  text : Bytes → String

/-- The response to a login request: its status and body, or why there was none. -/
abbrev AuthReply := Except String (ℕ × Bytes)

/-- `http.StatusOK`. -/
def statusOK : ℕ := 200

/-- `http.StatusServiceUnavailable`. -/
def statusServiceUnavailable : ℕ := 503

namespace JsonText

variable (J : JsonText)

/-- The body says `"transient":true`, as the probe of `classifyAuthError` reads it. -/
def transient (raw : Bytes) : Bool :=
  match (J.parse raw).bind Json.Value.rawMap with
  | some fields => Json.boolField "transient" fields = some true
  | none => false

/-- The string `session` of a body that is taken as a map of raw messages; empty if there is
none. -/
def session (result : List (String × Json.Value)) : String :=
  ((Json.entry result "session").bind Json.Value.string?).getD ""

/-- The string `session` of the object in `data`; empty if there is none. -/
def dataSession (result : List (String × Json.Value)) : String :=
  match Json.entry result "data" with
  | some (.obj data) => session data
  | _ => ""

/-- The string `session` of a body, or if that is no string the one in `data`. -/
def sessionOrData (result : List (String × Json.Value)) : String :=
  match (Json.entry result "session").bind Json.Value.string? with
  | some s => s
  | none => dataSession result

end JsonText

section replies

variable (J : JsonText)

/-- `classifyAuthError`. -/
def classifyAuthError (status : ℕ) (raw : Bytes) (op : String) : AuthError :=
  let text := op ++ ": status " ++ toString status ++ ": " ++ J.text raw
  if status = statusServiceUnavailable ∧ J.transient raw = true then
    ⟨.transient, "auth transient: arbiter unavailable: " ++ text⟩
  else ⟨.rejected, "auth rejected: " ++ text⟩

/-- `doKeyAuth`, from the response on. -/
def doKeyAuth : AuthReply → Except AuthError Bytes
  | .error err => .error ⟨.other, "key-auth: " ++ err⟩
  | .ok (status, raw) =>
    if status ≠ statusOK then .error (classifyAuthError J status raw "key-auth")
    else
      match (J.parse raw).bind Json.Value.rawMap with
      | none => .error ⟨.rejected, "auth rejected: key-auth: parse: " ++ J.unmarshalError raw ++
          ": body=" ++ J.text raw⟩
      | some result =>
        let tok := JsonText.session result
        if tok = "" then
          .error ⟨.rejected,
            "auth rejected: key-auth: no session token in response: " ++ J.text raw⟩
        else .ok (Json.utf8 tok)

/-- `doPasswordAuth`, from the response on. -/
def doPasswordAuth : AuthReply → Except AuthError Bytes
  | .error err => .error ⟨.other, "login: " ++ err⟩
  | .ok (status, raw) =>
    if status ≠ statusOK then .error (classifyAuthError J status raw "login")
    else
      match (J.parse raw).bind Json.Value.anyMap with
      | none => .error ⟨.rejected, "auth rejected: login: parse: " ++ J.unmarshalError raw ++
          ": body=" ++ J.text raw⟩
      | some result =>
        let tok := JsonText.sessionOrData result
        if tok = "" then
          .error ⟨.rejected, "auth rejected: login: no session token in response: " ++ J.text raw⟩
        else .ok (Json.utf8 tok)

/-- `sendAuthViaUDP`, from the return of `RoundTrip` on. -/
def sendAuthViaUDP (label : String) : AuthReply → Except AuthError Bytes
  | .error err => .error ⟨.other, label ++ ": " ++ err⟩
  | .ok (_, raw) =>
    match (J.parse raw).bind Json.Value.rawMap with
    | none => .error ⟨.rejected, "auth rejected: " ++ label ++ ": parse: " ++
        J.unmarshalError raw ++ " body=" ++ J.text raw⟩
    | some result =>
      let tok := JsonText.session result
      if tok = "" then
        .error ⟨.rejected, "auth rejected: " ++ label ++ ": no session token: " ++ J.text raw⟩
      else .ok (Json.utf8 tok)

end replies

/-- `LoginViaUDP`, as the token it stores or the error it returns, with the answers of the methods
in the order of their arrival. -/
def Authenticator.loginViaUDP (a : Authenticator) (replies : List (Except AuthError Bytes)) :
    Except AuthError Bytes :=
  if a.methods = 0 then .error ⟨.other, "login-udp: no valid auth method available"⟩
  else
    match firstToken replies with
    | .ok tok => .ok tok
    | .error errs =>
      let text := "login-udp: " ++ "; ".intercalate (errs.map AuthError.text)
      if errs.any (·.sentinel = .rejected) then .error ⟨.rejected, "auth rejected: " ++ text⟩
      else .error ⟨.other, text⟩

/-! ## The two ways compared -/

/-- The methods of authentication. -/
inductive Method where
  /-- The signed key. -/
  | key
  /-- The password. -/
  | password
  deriving DecidableEq, Repr

/-- The label `LoginViaUDP` gives a method. -/
def Method.label : Method → String
  | .key => "key-auth-udp"
  | .password => "password-auth-udp"

/-- What `Login` makes of the response to a method. -/
def doAuth (J : JsonText) : Method → AuthReply → Except AuthError Bytes
  | .key => doKeyAuth J
  | .password => doPasswordAuth J

/-- What a caller can tell apart: the token, or the sentinel the error wraps. -/
def verdict (r : Except AuthError Bytes) : Except AuthSentinel Bytes :=
  r.mapError AuthError.sentinel

/-- A status and a body mean the same whether they come over TCP or through a relay, for
`sendAuthViaUDP` and for a `LoginViaUDP` with this method alone; and an arbiter that is away is a
rejection on neither way. -/
structure SameOutcome (J : JsonText) (m : Method) (status : ℕ) (raw : Bytes) : Prop where
  /-- `sendAuthViaUDP` and `doKeyAuth` or `doPasswordAuth`. -/
  sendAuth : verdict (sendAuthViaUDP J m.label (.ok (status, raw))) =
    verdict (doAuth J m (.ok (status, raw)))
  /-- `LoginViaUDP`. -/
  login : ∀ a : Authenticator, a.methods = 1 →
    verdict (a.loginViaUDP [sendAuthViaUDP J m.label (.ok (status, raw))]) =
      verdict (doAuth J m (.ok (status, raw)))
  /-- A transient failure. -/
  transient : status = statusServiceUnavailable → J.transient raw = true →
    verdict (doAuth J m (.ok (status, raw))) ≠ .error .rejected ∧
      verdict (sendAuthViaUDP J m.label (.ok (status, raw))) ≠ .error .rejected

namespace JsonText

variable (J : JsonText) (status : ℕ) (raw : Bytes)

/-- The session at the top of the body; empty if there is none. -/
def topSession : String := (((J.parse raw).bind Json.Value.rawMap).map session).getD ""

/-- Whatever token is in the body stands at its top, with no number too large for a `float64`
beside it. -/
def Plain : Prop :=
  ∀ v ∈ J.parse raw, ∀ result ∈ v.rawMap,
    (session result ≠ "" → v.representable = true) ∧
    ((Json.entry result "session").bind Json.Value.string? = none → dataSession result ≠ "" →
      v.representable = false)

/-- The answers that both ways understand alike.  With status 200 a key can be in any body, a
password needs one that is `Plain`; with any other status the body has no session at its top and is
not a transient failure. -/
def Understood (m : Method) : Prop :=
  if status = statusOK then m = .password → J.Plain raw
  else J.topSession raw = "" ∧ ¬(status = statusServiceUnavailable ∧ J.transient raw = true)

/-- What a body with this session means. -/
def ofSession (s : String) : Except AuthSentinel Bytes :=
  if s = "" then .error .rejected else .ok (Json.utf8 s)

/-- What a status other than 200 means over TCP. -/
def refusal : AuthSentinel :=
  if status = statusServiceUnavailable ∧ J.transient raw = true then .transient else .rejected

theorem verdict_sendAuthViaUDP (label : String) :
    verdict (sendAuthViaUDP J label (.ok (status, raw))) = ofSession (J.topSession raw) := by
  rw [sendAuthViaUDP, topSession]
  cases (J.parse raw).bind Json.Value.rawMap with
  | none => rfl
  | some result =>
    simp only [Option.map_some, Option.getD_some, ofSession]
    split <;> rfl

theorem verdict_classifyAuthError (op : String) :
    verdict (.error (classifyAuthError J status raw op)) = .error (J.refusal status raw) := by
  rw [classifyAuthError, refusal]
  split <;> rfl

/-- The session `Login` finds in a body with status 200. -/
def accepted : Method → String
  | .key => J.topSession raw
  | .password => (((J.parse raw).bind Json.Value.anyMap).map sessionOrData).getD ""

theorem verdict_doAuth (m : Method) :
    verdict (doAuth J m (.ok (status, raw))) =
      if status = statusOK then ofSession (J.accepted raw m)
      else .error (J.refusal status raw) := by
  by_cases hok : status = statusOK
  · rw [if_pos hok]
    cases m with
    | key =>
      rw [doAuth, doKeyAuth, if_neg (not_not_intro hok), accepted, topSession]
      cases (J.parse raw).bind Json.Value.rawMap with
      | none => rfl
      | some result =>
        simp only [Option.map_some, Option.getD_some, ofSession]
        split <;> rfl
    | password =>
      rw [doAuth, doPasswordAuth, if_neg (not_not_intro hok), accepted]
      cases (J.parse raw).bind Json.Value.anyMap with
      | none => rfl
      | some result =>
        simp only [Option.map_some, Option.getD_some, ofSession]
        split <;> rfl
  · rw [if_neg hok]
    cases m with
    | key =>
      rw [doAuth, doKeyAuth, if_pos hok]
      exact verdict_classifyAuthError J status raw "key-auth"
    | password =>
      rw [doAuth, doPasswordAuth, if_pos hok]
      exact verdict_classifyAuthError J status raw "login"

/-- `LoginViaUDP` with a single method hands its verdict on. -/
theorem verdict_loginViaUDP {a : Authenticator} (ha : a.methods = 1) (label : String) :
    verdict (a.loginViaUDP [sendAuthViaUDP J label (.ok (status, raw))]) =
      verdict (sendAuthViaUDP J label (.ok (status, raw))) := by
  have hudp := J.verdict_sendAuthViaUDP status raw label
  rw [Authenticator.loginViaUDP, if_neg (by omega)]
  cases hr : sendAuthViaUDP J label (.ok (status, raw)) with
  | ok tok => rfl
  | error err =>
    rw [hr, ofSession] at hudp
    have hrej : err.sentinel = .rejected := by
      split at hudp
      · exact Except.error.inj hudp
      · cases hudp
    simp [firstToken, verdict, hrej, Except.mapError]

/-- With status 200 the two ways differ about a password unless the body is `Plain`. -/
theorem ofSession_eq_iff_plain :
    ofSession (J.topSession raw) = ofSession (J.accepted raw .password) ↔ J.Plain raw := by
  rw [topSession, accepted, Plain]
  cases J.parse raw with
  | none => simp
  | some v =>
    simp only [Option.bind_some, Option.mem_def, Option.some_inj, forall_eq', Json.Value.anyMap]
    cases hmap : v.rawMap with
    | none => simp
    | some result =>
      -- Over TCP a number that is too large makes the body unreadable; then the entry `session`
      -- decides whether `data` is looked at.
      cases v.representable
      all_goals
        simp only [if_true, if_false, Bool.false_eq_true, Option.map_some, Option.map_none,
          Option.getD_some, Option.getD_none, Option.some_inj, forall_eq', session, sessionOrData]
        generalize (Json.entry result "session").bind Json.Value.string? = top
        cases top <;> simp [ofSession]

/-- **TCP and UDP agree** about an answer if and only if it is `Understood`. -/
theorem same_outcome_iff (m : Method) : SameOutcome J m status raw ↔ J.Understood status raw m := by
  have hiff : verdict (sendAuthViaUDP J m.label (.ok (status, raw))) =
      verdict (doAuth J m (.ok (status, raw))) ↔ J.Understood status raw m := by
    rw [J.verdict_sendAuthViaUDP, J.verdict_doAuth, Understood]
    by_cases hok : status = statusOK
    · rw [if_pos hok, if_pos hok]
      cases m with
      | key => simp [accepted]
      | password => simpa using J.ofSession_eq_iff_plain raw
    · rw [if_neg hok, if_neg hok, ofSession, refusal]
      split <;> split <;> simp_all
  refine ⟨fun h ↦ hiff.mp h.sendAuth, fun h ↦ ?_⟩
  have hsend := hiff.mpr h
  refine ⟨hsend, fun a ha ↦ (J.verdict_loginViaUDP status raw ha m.label).trans hsend, ?_⟩
  intro hstatus htrans
  have htcp : verdict (doAuth J m (.ok (status, raw))) = .error .transient := by
    rw [J.verdict_doAuth, if_neg (by rw [hstatus]; decide), refusal, if_pos ⟨hstatus, htrans⟩]
  rw [hsend, htcp]
  exact ⟨nofun, nofun⟩

end JsonText

namespace Demo

/-- The answer of a control node whose arbiter is away. -/
def unavailable : Bytes := Json.utf8 "\x7b\"error\":\"arbiter_unavailable\",\"transient\":true\x7d"

/-- JSON syntax, as far as that answer is concerned. -/
def json : JsonText where
  parse raw :=
    if raw = unavailable then
      some (.obj [("error", .str "arbiter_unavailable"), ("transient", .bool true)])
    else none
  unmarshalError _ := "invalid character"
  text _ := "\x7b\"error\":\"arbiter_unavailable\",\"transient\":true\x7d"

end Demo

/-- An arbiter that is away for a moment is a transient failure over TCP, and a rejection of the
credentials over UDP. -/
theorem transient_rejected_via_udp :
    verdict (doKeyAuth Demo.json (.ok (503, Demo.unavailable))) = .error .transient ∧
      verdict (sendAuthViaUDP Demo.json Method.key.label (.ok (503, Demo.unavailable))) =
        .error .rejected := by
  decide +kernel

end TunnelCat
