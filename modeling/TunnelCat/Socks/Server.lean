import TunnelCat.Bypass.Manager
import TunnelCat.Lib.Pending

/-!
# The SOCKS5 server

Every client that connects has a goroutine of its own, `handle`.  It reads the request, and for a
CONNECT decides which way the traffic goes: directly, if there is a bypass manager and the address
is in the country or in the local network; otherwise through the tunnel, or through the function
that was given instead of one.  It dials, sends a reply, and copies in both directions until both
are over.  At most 500 clients with one address are in the tunnel at a time; the others wait.

`Server` is the server with all its goroutines; a step is one access to a shared variable or one
answer of the environment.  What a goroutine has done is kept with it: the replies it has sent, the
ways it has dialled, whether it has recorded that bypassing failed, and what was copied.

* `slots_exact` is about the limiter: the tokens in the channel of an address are the goroutines
  that have taken one and not yet given it back, so there are never more than the limit, and giving
  one back never blocks.
* `handlers_proper` is about each goroutine: one reply and no more, success exactly if something is
  copied; a direct connection exactly if the policy says so, and the tunnel after it only outside of
  the local network; what reaches one side is a beginning of what was read from the other; and when
  the goroutine has ended both connections are closed.
-/

set_option autoImplicit false

open AddrText Function Trace

namespace TunnelCat.Socks

/-- `repSuccess`. -/
def repSuccess : UInt8 := 0x00

/-- `socks5PerIPLimit`. -/
def socks5PerIPLimit : ℕ := 500

/-- `IP.IsLoopback`, `IP.IsLinkLocalUnicast` or `IP.IsPrivate`. -/
def isLAN (ip : Bytes) : Bool :=
  match Assoc.to4 ip with
  | some ip4 => Assoc.isLANAddress ip4
  | none =>
    ip = List.replicate 15 0 ++ [1] || (ip.getD 0 0 = 0xfe && ip.getD 1 0 &&& 0xc0 = 0x80) ||
      ip.getD 0 0 &&& 0xfe = 0xfc

/-- `isLANAddress`. -/
def isLANAddress (target : Bytes) : Bool :=
  match parseIP (Bypass.hostOf target) with
  | none => false
  | some ip => isLAN ip

/-- `sendSOCKS5UDPReply`. -/
def socks5UDPReply (ip : Bytes) (port : UInt16) : Bytes :=
  match Assoc.to4 ip with
  | some ip4 => [socks5Version, repSuccess, 0x00, Assoc.atypIPv4] ++ ip4 ++ putUint16 port
  | none => [socks5Version, repSuccess, 0x00, Assoc.atypIPv6] ++ ip ++ putUint16 port

/-- The address that a client is told to send its datagrams to: `127.0.0.1` for a socket that is
bound to no address. -/
def replyIP (ip : Bytes) : Bytes :=
  if ip.all (· = 0) ∨ Assoc.to4 ip = some [0, 0, 0, 0] then [127, 0, 0, 1] else ip

/-! ## Copying -/

/-- Where an `io.Copy` of `relayConns` is. -/
inductive CopyState where
  /-- In `Read` of its source. -/
  | reading
  /-- In `Write` of what it has read. -/
  | writing (block : Bytes)
  /-- It has returned, before its destination is closed. -/
  | closing
  /-- It has ended. -/
  | done
  deriving DecidableEq

/-- One direction. -/
structure Copy where
  /-- Where it is. -/
  state : CopyState
  /-- Record: what was read from the source. -/
  taken : Bytes
  /-- Record: what was written to the destination. -/
  given : Bytes
  deriving DecidableEq

/-- What happens in one direction. -/
inductive CopyEvent where
  /-- `Read` returns a block. -/
  | read (block : Bytes)
  /-- `Read` returns the end of the stream, or an error. -/
  | eof
  /-- `Write` returns; with an error it has written this many bytes. -/
  | write (failed : Option ℕ)
  /-- The destination is closed. -/
  | close

/-- A step of one direction. -/
def Copy.step (c : Copy) (e : CopyEvent) : Option Copy :=
  match c.state, e with
  | .reading, .read block => some { c with state := .writing block, taken := c.taken ++ block }
  | .reading, .eof => some { c with state := .closing }
  | .writing block, .write none => some { c with state := .reading, given := c.given ++ block }
  | .writing block, .write (some n) =>
    some { c with state := .closing, given := c.given ++ block.take n }
  | .closing, .close => some { c with state := .done }
  | _, _ => none

/-- The two goroutines of `relayConns`. -/
structure Pump where
  /-- From the client to the remote side, which is closed at the end. -/
  up : Copy
  /-- From the remote side to the client, which is closed at the end. -/
  down : Copy
  deriving DecidableEq

/-- The beginning of `relayConns`. -/
def Pump.new : Pump := ⟨⟨.reading, [], []⟩, ⟨.reading, [], []⟩⟩

/-- One of the two takes a step. -/
def Pump.step (p : Pump) : Bool → CopyEvent → Option Pump
  | true, e => (p.up.step e).map fun c ↦ { p with up := c }
  | false, e => (p.down.step e).map fun c ↦ { p with down := c }

/-- `relayConns` returns. -/
def Pump.finished (p : Pump) : Bool := p.up.state = .done ∧ p.down.state = .done

/-! ## The server -/

/-- A way to the target. -/
inductive Route where
  /-- Around the tunnel. -/
  | direct
  /-- Through a dialer of the pool. -/
  | tunnel
  /-- Through `dialFn`. -/
  | external
  deriving DecidableEq

/-- What a server dials with. -/
inductive Source where
  /-- `pool`. -/
  | pool
  /-- `dialFn`, and no pool. -/
  | dialFn
  deriving DecidableEq

/-- What a `SOCKS5Server` is made with. -/
structure Config where
  /-- `NewSOCKS5ServerWithPool` gives it a pool, `NewSOCKS5ServerWithDialFunc` a function. -/
  source : Source
  /-- Whether `bypass` is set. -/
  bypass : Bool
  /-- `DisableUDP`. -/
  disableUDP : Bool
  /-- `limiter.perIP`. -/
  perIP : ℕ

/-- `NewSOCKS5ServerWithPool`, and what the callers set after it. -/
def newSOCKS5ServerWithPool (bypass disableUDP : Bool) : Config :=
  ⟨.pool, bypass, disableUDP, socks5PerIPLimit⟩

/-- Where a `handle` is. -/
inductive Pc where
  /-- Reading the greeting and the request. -/
  | reading
  /-- At the beginning of `handleConnect`. -/
  | connecting (target : Bytes)
  /-- Dialling around the tunnel. -/
  | bypassing (target : Bytes) (lan : Bool)
  /-- In `acquire`. -/
  | waiting (target : Bytes) (bypassFailed : Bool)
  /-- It has a slot, before a dialer is picked. -/
  | picking (target : Bytes) (bypassFailed : Bool)
  /-- In `Dial`, or in `dialFn`. -/
  | dialling (target : Bytes) (bypassFailed : Bool)
  /-- It has dialled, before `RecordBypassFailure`. -/
  | recording (ok : Bool)
  /-- In `relayConns`. -/
  | relaying (slot : Bool)
  /-- At the beginning of `handleUDPAssoc`. -/
  | associating
  /-- In `relayLoop` of a UDP session. -/
  | associated
  /-- `handleConnect` returns, before the slot is given back. -/
  | returning (slot : Bool)
  /-- It has ended, and the client's connection is closed. -/
  | ended
  deriving DecidableEq

/-- What a goroutine has done. -/
structure Record where
  /-- The target of a CONNECT. -/
  target : Option Bytes
  /-- What `ShouldBypass` has returned. -/
  should : Bool
  /-- The replies to the request. -/
  replies : List Bytes
  /-- The ways that were dialled, and whether that worked. -/
  dials : List (Route × Bool)
  /-- `Pick` has returned no dialer. -/
  noDialer : Bool
  /-- `RecordBypassFailure` was called. -/
  recorded : Bool
  /-- What was copied, and which way. -/
  relay : Option (Route × Pump)

/-- A goroutine of `handle`. -/
structure Handler extends Record where
  /-- `remoteHost` of the client's address. -/
  ip : Bytes
  /-- Where it is. -/
  pc : Pc

/-- A goroutine for a client with this address. -/
def Handler.new (ip : Bytes) : Handler := ⟨⟨none, false, [], [], false, false, none⟩, ip, .reading⟩

/-- A reply is sent, and the goroutine goes on. -/
def Handler.reply (h : Handler) (reply : Bytes) (pc : Pc) : Handler :=
  { h with replies := h.replies ++ [reply], pc := pc }

/-- Copying begins. -/
def Handler.start (h : Handler) (route : Route) (slot : Bool) : Handler :=
  { h.reply (socks5Reply repSuccess) (.relaying slot) with relay := some (route, .new) }

/-- What the environment does in a step of a goroutine. -/
inductive HandlerEvent where
  /-- The client has sent this, and no more comes in time. -/
  | request (input : Bytes)
  /-- `ShouldBypass` returns. -/
  | decide (should : Bool)
  /-- A connection attempt ends. -/
  | dialled (ok : Bool)
  /-- The channel has room for a token. -/
  | acquire
  /-- `Pick` returns a dialer, or none. -/
  | pick (found : Bool)
  /-- `RecordBypassFailure` returns. -/
  | record
  /-- One of the copies takes a step; `true` is the one from the client. -/
  | copy (up : Bool) (e : CopyEvent)
  /-- Both copies are over. -/
  | finish
  /-- `Pick` returns a dialer or none, and a session is made, with this address of its own, or
  not. -/
  | associate (found : Bool) (made : Option (Bytes × UInt16))
  /-- Return, and give back the slot. -/
  | leave

/-- The way through the tunnel. -/
def Config.through (K : Config) : Route :=
  match K.source with
  | .dialFn => .external
  | .pool => .tunnel

/-- The traffic goes around the tunnel first. -/
def Config.goesDirect (K : Config) (should : Bool) (target : Bytes) : Bool :=
  K.source = .pool && K.bypass && (should || isLANAddress target)

/-- `handleConnect`, after it has dialled through the tunnel. -/
def Handler.afterDial (K : Config) (h : Handler) (ok : Bool) : Handler :=
  if ok then h.start K.through true else h.reply (socks5Reply repGenFail) (.returning true)

/-- `handle`, `handleConnect` and `handleUDPAssoc`; the tokens are those in the channels of the
limiter. -/
def Handler.step (K : Config) (tokens : Bytes → ℕ) (h : Handler) (e : HandlerEvent) :
    Option ((Bytes → ℕ) × Handler) :=
  match h.pc, e with
  | .reading, .request input =>
    match (handle input).next with
    | .close =>
      -- the first thing that is written is the answer to the greeting
      some (tokens, { h with replies := (handle input).written.drop 1, pc := .returning false })
    | .connect target => some (tokens, { h with target := some target, pc := .connecting target })
    | .udpAssoc _ => some (tokens, { h with pc := .associating })
  | .connecting target, .decide should =>
    if isBitTorrentPort target then
      some (tokens, h.reply (socks5Reply repGenFail) (.returning false))
    else if K.goesDirect should target then
      some (tokens, { h with should := should, pc := .bypassing target (isLANAddress target) })
    else some (tokens, { h with should := should, pc := .waiting target false })
  | .bypassing target lan, .dialled ok =>
    let h := { h with dials := h.dials ++ [(Route.direct, ok)] }
    if ok then some (tokens, h.start .direct false)
    else if lan then some (tokens, h.reply (socks5Reply repGenFail) (.returning false))
    else some (tokens, { h with pc := .waiting target true })
  | .waiting target bypassFailed, .acquire =>
    if tokens h.ip < K.perIP then
      some (update tokens h.ip (tokens h.ip + 1),
        { h with pc := .picking target bypassFailed })
    else none
  | .picking target bypassFailed, .pick found =>
    if K.source = .dialFn || found then
      some (tokens, { h with pc := .dialling target bypassFailed })
    else
      let h := { h with noDialer := true }
      some (tokens, h.reply (socks5Reply repGenFail) (.returning true))
  | .dialling _ bypassFailed, .dialled ok =>
    let h := { h with dials := h.dials ++ [(K.through, ok)] }
    if bypassFailed && K.bypass then some (tokens, { h with pc := .recording ok })
    else some (tokens, h.afterDial K ok)
  | .recording ok, .record => some (tokens, { h with recorded := true }.afterDial K ok)
  | .relaying _, .copy up e =>
    match h.relay with
    | none => none
    | some (route, p) => (p.step up e).map fun p ↦ (tokens, { h with relay := some (route, p) })
  | .relaying slot, .finish =>
    if h.relay.any fun r ↦ r.2.finished then some (tokens, { h with pc := .returning slot })
    else none
  | .associating, .associate found made =>
    if K.disableUDP || K.source = .dialFn then
      some (tokens, h.reply (socks5Reply repCmdNotSupp) (.returning false))
    else if !found then some (tokens, h.reply (socks5Reply repGenFail) (.returning false))
    else
      match made with
      | none => some (tokens, h.reply (socks5Reply repGenFail) (.returning false))
      | some (ip, port) => some (tokens, h.reply (socks5UDPReply (replyIP ip) port) .associated)
  | .associated, .finish => some (tokens, { h with pc := .returning false })
  | .returning slot, .leave =>
    if !slot then some (tokens, { h with pc := .ended })
    else if 0 < tokens h.ip then
      some (update tokens h.ip (tokens h.ip - 1), { h with pc := .ended })
    else none
  | _, _ => none

/-- The server with its goroutines. -/
structure Server where
  /-- How many tokens are in the channel of an address. -/
  tokens : Bytes → ℕ
  /-- The goroutines. -/
  handlers : List Handler

/-- What can happen. -/
inductive Event where
  /-- A client connects. -/
  | accept (ip : Bytes)
  /-- A goroutine goes on. -/
  | handler (i : ℕ) (e : HandlerEvent)

/-- A server that nobody has connected to. -/
def Server.new : Server := ⟨fun _ ↦ 0, []⟩

/-- One step. -/
def Server.step (K : Config) (s : Server) : Event → Option Server
  | .accept ip => some { s with handlers := s.handlers ++ [.new ip] }
  | .handler i e =>
    s.handlers[i]?.bind fun h ↦
      (h.step K s.tokens e).map fun r ↦ ⟨r.1, s.handlers.set i r.2⟩

variable {K : Config} {h h' : Handler} {tokens tokens' : Bytes → ℕ} {s s' : Server}

/-! ## What a step can do -/

/-- The steps of a goroutine. -/
inductive Moves (K : Config) (tokens : Bytes → ℕ) (h : Handler) :
    (Bytes → ℕ) → Handler → Prop where
  /-- There is no request that could be followed. -/
  | refuse {input : Bytes} (pc : h.pc = .reading) :
    Moves K tokens h tokens { h with
      replies := (handle input).written.drop 1, pc := .returning false }
  /-- The request is a CONNECT. -/
  | connect {target : Bytes} (pc : h.pc = .reading) :
    Moves K tokens h tokens { h with target := some target, pc := .connecting target }
  /-- The request is a UDP ASSOCIATE. -/
  | udpAssoc (pc : h.pc = .reading) : Moves K tokens h tokens { h with pc := .associating }
  /-- The port is blocked. -/
  | block {target : Bytes} (pc : h.pc = .connecting target)
    (blocked : isBitTorrentPort target = true) :
    Moves K tokens h tokens (h.reply (socks5Reply repGenFail) (.returning false))
  /-- The traffic is to bypass the tunnel. -/
  | bypass {target : Bytes} {should : Bool} (pc : h.pc = .connecting target)
    (allowed : isBitTorrentPort target = false) (direct : K.goesDirect should target = true) :
    Moves K tokens h tokens
      { h with should := should, pc := .bypassing target (isLANAddress target) }
  /-- It is not. -/
  | enqueue {target : Bytes} {should : Bool} (pc : h.pc = .connecting target)
    (allowed : isBitTorrentPort target = false) (direct : K.goesDirect should target = false) :
    Moves K tokens h tokens { h with should := should, pc := .waiting target false }
  /-- The direct connection is made. -/
  | direct {target : Bytes} {lan : Bool} (pc : h.pc = .bypassing target lan) :
    Moves K tokens h tokens
      (Handler.start { h with dials := h.dials ++ [(.direct, true)] } .direct false)
  /-- It is not, and the address is in the local network. -/
  | unreachable {target : Bytes} (pc : h.pc = .bypassing target true) :
    Moves K tokens h tokens (Handler.reply { h with dials := h.dials ++ [(.direct, false)] }
      (socks5Reply repGenFail) (.returning false))
  /-- It is not, and the tunnel is tried. -/
  | retry {target : Bytes} (pc : h.pc = .bypassing target false) :
    Moves K tokens h tokens
      { h with dials := h.dials ++ [(.direct, false)], pc := .waiting target true }
  /-- A slot is taken. -/
  | acquire {target : Bytes} {bypassFailed : Bool} (pc : h.pc = .waiting target bypassFailed)
    (room : tokens h.ip < K.perIP) :
    Moves K tokens h (update tokens h.ip (tokens h.ip + 1))
      { h with pc := .picking target bypassFailed }
  /-- There is a dialer. -/
  | pick {target : Bytes} {bypassFailed : Bool} (pc : h.pc = .picking target bypassFailed) :
    Moves K tokens h tokens { h with pc := .dialling target bypassFailed }
  /-- There is none. -/
  | noDialer {target : Bytes} {bypassFailed : Bool} (pc : h.pc = .picking target bypassFailed) :
    Moves K tokens h tokens
      (Handler.reply { h with noDialer := true } (socks5Reply repGenFail) (.returning true))
  /-- It has dialled, and is to record that bypassing failed. -/
  | dialAgain {target : Bytes} {ok : Bool} (pc : h.pc = .dialling target true) :
    Moves K tokens h tokens
      { h with dials := h.dials ++ [(K.through, ok)], pc := .recording ok }
  /-- It has dialled. -/
  | dial {target : Bytes} {bypassFailed ok : Bool} (pc : h.pc = .dialling target bypassFailed)
    (first : (bypassFailed && K.bypass) = false) :
    Moves K tokens h tokens
      (Handler.afterDial K { h with dials := h.dials ++ [(K.through, ok)] } ok)
  /-- It has recorded that bypassing failed. -/
  | record {ok : Bool} (pc : h.pc = .recording ok) :
    Moves K tokens h tokens (Handler.afterDial K { h with recorded := true } ok)
  /-- Something is copied. -/
  | copy {slot : Bool} {route : Route} {p p' : Pump} {up : Bool} {e : CopyEvent}
    (pc : h.pc = .relaying slot) (relay : h.relay = some (route, p))
    (step : p.step up e = some p') :
    Moves K tokens h tokens { h with relay := some (route, p') }
  /-- Everything is copied. -/
  | copied {slot : Bool} {route : Route} {p : Pump} (pc : h.pc = .relaying slot)
    (relay : h.relay = some (route, p)) (finished : p.finished = true) :
    Moves K tokens h tokens { h with pc := .returning slot }
  /-- The UDP ASSOCIATE is answered. -/
  | associate {reply : Bytes} {pc' : Pc} (pc : h.pc = .associating)
    (next : pc' = .returning false ∨ pc' = .associated) :
    Moves K tokens h tokens (h.reply reply pc')
  /-- The UDP session is over. -/
  | dissociate (pc : h.pc = .associated) :
    Moves K tokens h tokens { h with pc := .returning false }
  /-- It returns. -/
  | leave (pc : h.pc = .returning false) : Moves K tokens h tokens { h with pc := .ended }
  /-- It gives back its slot and returns. -/
  | release (pc : h.pc = .returning true) :
    Moves K tokens h (update tokens h.ip (tokens h.ip - 1)) { h with pc := .ended }

theorem moves_of_step {e : HandlerEvent} (hstep : h.step K tokens e = some (tokens', h')) :
    Moves K tokens h tokens' h' := by
  rw [Handler.step.eq_def] at hstep
  split at hstep <;> rename_i hpc
  case h_1 input =>
    split at hstep <;> cases hstep
    · exact .refuse hpc
    · exact .connect hpc
    · exact .udpAssoc hpc
  case h_2 target should =>
    split at hstep <;> rename_i hport
    · cases hstep
      exact .block hpc hport
    · rw [Bool.not_eq_true] at hport
      split at hstep <;> rename_i hdirect <;> cases hstep
      · exact .bypass hpc hport hdirect
      · exact .enqueue hpc hport ((Bool.not_eq_true _).mp hdirect)
  case h_3 target lan ok =>
    dsimp only at hstep
    split at hstep <;> rename_i hok
    · cases hstep
      rw [hok]
      exact .direct hpc
    · rw [Bool.not_eq_true] at hok
      split at hstep <;> rename_i hlan <;> cases hstep
      · rw [hok]
        exact .unreachable (hlan ▸ hpc)
      · rw [hok]
        exact .retry ((Bool.not_eq_true _).mp hlan ▸ hpc)
  case h_4 =>
    rw [Option.ite_none_right_eq_some, Option.some_inj, Prod.mk.injEq] at hstep
    obtain ⟨hroom, rfl, rfl⟩ := hstep
    exact .acquire hpc hroom
  case h_5 =>
    split at hstep <;> cases hstep
    · exact .pick hpc
    · exact .noDialer hpc
  case h_6 target bypassFailed ok =>
    dsimp only at hstep
    split at hstep <;> rename_i hfailed <;> cases hstep
    · exact .dialAgain ((Bool.and_eq_true_iff.mp hfailed).1 ▸ hpc)
    · exact .dial hpc ((Bool.not_eq_true _).mp hfailed)
  case h_7 =>
    cases hstep
    exact .record hpc
  case h_8 =>
    split at hstep <;> rename_i hrelay
    · cases hstep
    · obtain ⟨p', hp, heq⟩ := Option.map_eq_some_iff.mp hstep
      rw [Prod.mk.injEq] at heq
      obtain ⟨rfl, rfl⟩ := heq
      exact .copy hpc hrelay hp
  case h_9 =>
    rw [Option.ite_none_right_eq_some, Option.some_inj, Prod.mk.injEq] at hstep
    obtain ⟨hover, rfl, rfl⟩ := hstep
    rcases Option.eq_none_or_eq_some h.relay with hrelay | ⟨r, hrelay⟩ <;> rw [hrelay] at hover
    · cases hover
    · exact .copied hpc hrelay hover
  case h_10 =>
    split at hstep
    · cases hstep
      exact .associate hpc (.inl rfl)
    · split at hstep
      · cases hstep
        exact .associate hpc (.inl rfl)
      · split at hstep <;> cases hstep
        · exact .associate hpc (.inl rfl)
        · exact .associate hpc (.inr rfl)
  case h_11 =>
    cases hstep
    exact .dissociate hpc
  case h_12 slot =>
    split at hstep <;> rename_i hslot
    · cases hstep
      rw [Bool.not_eq_true'] at hslot
      exact .leave (hslot ▸ hpc)
    · rw [Option.ite_none_right_eq_some, Option.some_inj, Prod.mk.injEq] at hstep
      obtain ⟨-, rfl, rfl⟩ := hstep
      rw [Bool.not_eq_true', Bool.not_eq_false] at hslot
      exact .release (hslot ▸ hpc)
  case h_13 => cases hstep

/-! ## Slots -/

/-- The goroutine has put a token into the channel of its address and not taken it out. -/
def Pc.holds : Pc → Bool
  | .picking _ _ | .dialling _ _ | .recording _ => true
  | .relaying slot | .returning slot => slot
  | _ => false

/-- How many goroutines hold a token for an address. -/
def Server.holders (s : Server) (ip : Bytes) : ℕ :=
  s.handlers.countP fun h ↦ h.pc.holds && h.ip = ip

theorem holds_afterDial (h : Handler) (ok : Bool) : (h.afterDial K ok).pc.holds = true := by
  rw [Handler.afterDial]
  split <;> rfl

theorem ip_afterDial (h : Handler) (ok : Bool) : (h.afterDial K ok).ip = h.ip := by
  rw [Handler.afterDial]
  split <;> rfl

/-- What a step does to the tokens: it takes one, gives one back or leaves them. -/
inductive Tokens (K : Config) (tokens : Bytes → ℕ) (h : Handler) :
    (Bytes → ℕ) → Handler → Prop where
  /-- It leaves them. -/
  | same {h' : Handler} (ip : h'.ip = h.ip) (holds : h'.pc.holds = h.pc.holds) :
    Tokens K tokens h tokens h'
  /-- It takes one. -/
  | take {h' : Handler} (ip : h'.ip = h.ip) (room : tokens h.ip < K.perIP)
    (before : h.pc.holds = false) (after : h'.pc.holds = true) :
    Tokens K tokens h (update tokens h.ip (tokens h.ip + 1)) h'
  /-- It gives one back. -/
  | give {h' : Handler} (ip : h'.ip = h.ip) (before : h.pc.holds = true)
    (after : h'.pc.holds = false) :
    Tokens K tokens h (update tokens h.ip (tokens h.ip - 1)) h'

theorem tokens_of_moves (hmoves : Moves K tokens h tokens' h') : Tokens K tokens h tokens' h' := by
  cases hmoves with
  | acquire pc room => exact .take rfl room (by rw [pc]; rfl) rfl
  | release pc => exact .give rfl (by rw [pc]; rfl) rfl
  | dial pc first => exact .same (ip_afterDial ..) (by rw [pc, holds_afterDial]; rfl)
  | record pc => exact .same (ip_afterDial ..) (by rw [pc, holds_afterDial]; rfl)
  | copy pc relay step => exact .same rfl rfl
  | associate pc next => exact .same rfl (by rcases next with rfl | rfl <;> rw [pc] <;> rfl)
  | _ pc => exact .same rfl (by rw [pc]; rfl)

/-- **The limiter is exact.**  What holds of the tokens of every address. -/
structure Slots (K : Config) (s : Server) : Prop where
  /-- The tokens in the channel are held by as many goroutines. -/
  held : ∀ ip, s.tokens ip = s.holders ip
  /-- There are never more than the limit. -/
  bounded : ∀ ip, s.holders ip ≤ K.perIP

theorem Slots.step {e : Event} (hs : Slots K s) (hstep : s.step K e = some s') : Slots K s' := by
  cases e with
  | accept ip =>
    rw [Server.step, Option.some_inj] at hstep
    subst hstep
    have hsame : ∀ ip', Server.holders { s with handlers := s.handlers ++ [.new ip] } ip' =
        s.holders ip' := fun ip' ↦ by
      rw [Server.holders, List.countP_append]
      rfl
    exact ⟨fun ip' ↦ (hs.held ip').trans (hsame ip').symm, fun ip' ↦ hsame ip' ▸ hs.bounded ip'⟩
  | handler i e =>
    obtain ⟨h, hi, hstep⟩ := Option.bind_eq_some_iff.mp hstep
    obtain ⟨⟨tokens', h'⟩, hh, rfl⟩ := Option.map_eq_some_iff.mp hstep
    have htokens := tokens_of_moves (moves_of_step hh)
    have hcount := fun ip ↦ Pending.countP_set_add hi h' fun h ↦ h.pc.holds && h.ip = ip
    have hold := hs.held
    have hbound := hs.bounded
    -- only the address of this goroutine is concerned
    suffices h : ∀ ip, tokens' ip = Server.holders ⟨tokens', s.handlers.set i h'⟩ ip ∧
        tokens' ip ≤ K.perIP from ⟨fun ip ↦ (h ip).1, fun ip ↦ (h ip).1 ▸ (h ip).2⟩
    intro ip
    specialize hcount ip
    specialize hold ip
    specialize hbound ip
    rw [Server.holders] at hold hbound ⊢
    dsimp only at hcount ⊢
    cases htokens with
    | same hip holds =>
      rw [hip, holds] at hcount
      omega
    | take hip room before after | give hip before after =>
      rw [hip, before, after, Bool.false_and, Bool.true_and] at hcount
      by_cases hthis : h.ip = ip
      · subst hthis
        rw [update_self]
        simp only [decide_true, if_true, Bool.false_eq_true, if_false] at hcount
        omega
      · rw [update_of_ne (Ne.symm hthis)]
        simp only [hthis, decide_false, Bool.false_eq_true, if_false] at hcount
        omega

theorem slots_new : Slots K .new := ⟨fun _ ↦ rfl, fun _ ↦ Nat.zero_le _⟩

/-- A goroutine that holds a token finds one in the channel of its address. -/
theorem Slots.pos {i : ℕ} (hs : Slots K s) (hi : s.handlers[i]? = some h)
    (hholds : h.pc.holds = true) : 0 < s.tokens h.ip := by
  rw [hs.held]
  exact List.countP_pos_iff.mpr ⟨h, List.mem_of_getElem? hi, by rw [hholds]; simp⟩

/-- **The limiter counts exactly.**  Whatever the clients do and in whatever order the goroutines
run: the tokens in the channel of an address are as many as the goroutines that have taken one and
not given it back; there are never more than the limit; `release` never blocks; and `acquire` blocks
exactly as long as the address has its limit of connections in the tunnel. -/
theorem slots_exact {es : List Event} (hrun : exec (Server.step K) .new es = some s) :
    Slots K s ∧ ∀ i h, s.handlers[i]? = some h →
      (h.pc = .returning true → (s.step K (.handler i .leave)).isSome = true) ∧
        ∀ target bypassFailed, h.pc = .waiting target bypassFailed →
          ((s.step K (.handler i .acquire)).isSome = true ↔ s.holders h.ip < K.perIP) := by
  have hs : Slots K s := Trace.inv_of_exec Slots.step slots_new hrun
  refine ⟨hs, fun i h hi ↦ ⟨fun hpc ↦ ?_, fun target bypassFailed hpc ↦ ?_⟩⟩
  · have hpos := hs.pos hi (by rw [hpc]; rfl)
    simp only [Server.step, hi, Option.bind_some, Handler.step, hpc, Bool.not_true,
      Bool.false_eq_true, if_false, if_pos hpos, Option.map_some, Option.isSome_some]
  · rw [← hs.held]
    simp only [Server.step, hi, Option.bind_some, Handler.step, hpc, Option.isSome_map]
    by_cases hroom : s.tokens h.ip < K.perIP
    · simp only [hroom, if_true, Option.isSome_some]
    · simp only [hroom, if_false, Option.isSome_none, Bool.false_eq_true]

/-- A server that lets one connection of an address into the tunnel. -/
def onlyOne : Config := { newSOCKS5ServerWithPool false false with perIP := 1 }

/-- A greeting, and a CONNECT to `8.8.8.8:80`. -/
def connectEight : Bytes := [5, 1, 0, 5, 1, 0, 1, 8, 8, 8, 8, 0, 80]

/-- Two clients with one address: the first is about to pick a dialer, and the second waits. -/
def secondWaits : List Event :=
  [.accept [49], .accept [49], .handler 0 (.request connectEight),
    .handler 1 (.request connectEight), .handler 0 (.decide false), .handler 1 (.decide false),
    .handler 0 .acquire]

theorem slots_exact_second_waits :
    ∃ s h target, exec (Server.step onlyOne) .new secondWaits = some s ∧
      s.handlers[1]? = some h ∧ h.pc = .waiting target false ∧
        s.step onlyOne (.handler 1 .acquire) = none := by
  have hsummary : (exec (Server.step onlyOne) .new secondWaits).map (fun s ↦
      (s.handlers[1]?.map (fun h ↦ (h.pc, h.ip)), s.holders [49])) =
      some (some (.waiting [56, 46, 56, 46, 56, 46, 56, 58, 56, 48] false, [49]), 1) := by
    decide +kernel
  obtain ⟨s, hs, heq⟩ := Option.map_eq_some_iff.mp hsummary
  obtain ⟨hsecond, hholders⟩ := Prod.mk.injEq .. ▸ heq
  obtain ⟨h, hh, heq⟩ := Option.map_eq_some_iff.mp hsecond
  obtain ⟨hpc, hip⟩ := Prod.mk.injEq .. ▸ heq
  refine ⟨s, h, _, hs, hh, hpc, ?_⟩
  have hiff := ((slots_exact hs).2 1 h hh).2 _ _ hpc
  rw [hip, hholders] at hiff
  exact Option.not_isSome_iff_eq_none.mp fun hsome ↦ absurd (hiff.mp hsome) (by decide)

/-! ## Every goroutine -/

/-- What a copy has written, compared with what it has read. -/
def Copy.Faithful (c : Copy) : Prop :=
  match c.state with
  | .reading => c.given = c.taken
  | .writing block => c.taken = c.given ++ block
  | .closing | .done => c.given <+: c.taken

theorem Copy.Faithful.isPrefix {c : Copy} (hc : c.Faithful) : c.given <+: c.taken := by
  rw [Copy.Faithful] at hc
  split at hc
  · exact hc ▸ List.prefix_rfl
  · exact hc ▸ List.prefix_append ..
  · exact hc
  · exact hc

theorem Copy.Faithful.step {c c' : Copy} {e : CopyEvent} (hc : c.Faithful)
    (hstep : c.step e = some c') : c'.Faithful := by
  have hgiven := hc.isPrefix
  rw [Copy.step.eq_def] at hstep
  split at hstep <;> rename_i hstate
  case h_6 => cases hstep
  all_goals
    rw [Option.some_inj] at hstep
    subst hstep
    rw [Copy.Faithful, hstate] at hc
  · exact congrArg (· ++ _) hc.symm
  · exact hgiven
  · exact hc.symm
  · show _ <+: c.taken
    rw [hc]
    exact (List.prefix_append_right_inj _).mpr (List.take_prefix ..)
  · exact hgiven

/-- Both directions. -/
structure Pump.Faithful (p : Pump) : Prop where
  /-- From the client. -/
  up : p.up.Faithful
  /-- To the client. -/
  down : p.down.Faithful

theorem Pump.Faithful.step {p p' : Pump} {up : Bool} {e : CopyEvent} (hp : p.Faithful)
    (hstep : p.step up e = some p') : p'.Faithful := by
  cases up with
  | true =>
    obtain ⟨c, hc, rfl⟩ := Option.map_eq_some_iff.mp hstep
    exact ⟨hp.up.step hc, hp.down⟩
  | false =>
    obtain ⟨c, hc, rfl⟩ := Option.map_eq_some_iff.mp hstep
    exact ⟨hp.up, hp.down.step hc⟩

/-- The ways to a target that a goroutine may have dialled, in order, with what `ShouldBypass` has
returned. -/
inductive Tried (K : Config) (should : Bool) (target : Bytes) : List (Route × Bool) → Prop where
  /-- None. -/
  | nothing : Tried K should target []
  /-- Directly, as the policy asks for. -/
  | direct (ok : Bool) (allowed : isBitTorrentPort target = false)
    (direct : K.goesDirect should target = true) : Tried K should target [(.direct, ok)]
  /-- Through the tunnel, as the policy asks for. -/
  | through (ok : Bool) (allowed : isBitTorrentPort target = false)
    (direct : K.goesDirect should target = false) : Tried K should target [(K.through, ok)]
  /-- Directly, and when that had failed through the tunnel. -/
  | both (ok : Bool) (allowed : isBitTorrentPort target = false)
    (direct : K.goesDirect should target = true) (notLAN : isLANAddress target = false) :
    Tried K should target [(.direct, false), (K.through, ok)]

/-- The tunnel was dialled because bypassing had failed. -/
def Record.Fellback (K : Config) (r : Record) : Prop :=
  ∃ ok, r.dials = [(.direct, false), (K.through, ok)]

variable {target : Bytes} {r : Record}

theorem not_fellback (hdials : r.dials.length ≤ 1) : ¬r.Fellback K := by
  rintro ⟨ok, h⟩
  rw [h] at hdials
  exact absurd hdials (by simp)

/-- Nothing was answered so far. -/
structure Fresh (r : Record) : Prop where
  /-- No reply was sent. -/
  replies : r.replies = []
  /-- Nothing was recorded. -/
  recorded : r.recorded = false
  /-- Nothing is copied. -/
  relay : r.relay = none

/-- What a goroutine with a CONNECT did before it answered. -/
structure Dialled (K : Config) (r : Record) (target : Bytes) : Prop where
  /-- The target. -/
  asked : r.target = some target
  /-- The ways that it dialled. -/
  tried : Tried K r.should target r.dials
  /-- It has recorded that bypassing failed if it was to. -/
  recorded : r.recorded = true ↔ r.Fellback K

/-- Before anything is recorded: at most one way was dialled. -/
theorem Fresh.dialled (hfresh : Fresh r) (htarget : r.target = some target)
    (htried : Tried K r.should target r.dials) (hdials : r.dials.length ≤ 1) : Dialled K r target :=
  ⟨htarget, htried,
    iff_of_false (fun h ↦ Bool.false_ne_true (hfresh.recorded ▸ h)) (not_fellback hdials)⟩

/-- One more way is dialled. -/
theorem Fresh.dial (hfresh : Fresh r) (d : Route × Bool) :
    Fresh { r with dials := r.dials ++ [d] } :=
  ⟨hfresh.replies, hfresh.recorded, hfresh.relay⟩

/-- Why a CONNECT fails. -/
inductive Failure (K : Config) (r : Record) (target : Bytes) : Prop where
  /-- The port is blocked. -/
  | blocked (port : isBitTorrentPort target = true) (dials : r.dials = [])
  /-- The target is in the local network and cannot be reached. -/
  | unreachable (lan : isLANAddress target = true) (dials : r.dials = [(.direct, false)])
  /-- There is no dialer, so the tunnel is not tried. -/
  | noDialer (noDialer : r.noDialer = true) (dials : r.dials = [] ∨ r.dials = [(.direct, false)])
  /-- The tunnel does not reach the target. -/
  | dial (last : r.dials.getLast? = some (K.through, false))

/-- A goroutine copies. -/
structure Relayed (K : Config) (r : Record) (target : Bytes) (route : Route) (p : Pump) :
    Prop where
  /-- What it did before. -/
  dialled : Dialled K r target
  /-- The reply. -/
  replies : r.replies = [socks5Reply repSuccess]
  /-- What is copied. -/
  relay : r.relay = some (route, p)
  /-- The connection. -/
  last : r.dials.getLast? = some (route, true)
  /-- Nothing is lost on the way. -/
  faithful : p.Faithful

/-- What a goroutine has done when it returns. -/
inductive Settled (K : Config) (r : Record) : Prop where
  /-- There was no CONNECT. -/
  | other (target : r.target = none) (dials : r.dials = []) (recorded : r.recorded = false)
    (relay : r.relay = none) (replies : r.replies.length ≤ 1)
  /-- The CONNECT failed. -/
  | failed {target : Bytes} (dialled : Dialled K r target) (relay : r.relay = none)
    (replies : r.replies = [socks5Reply repGenFail]) (failure : Failure K r target)
  /-- It worked, and everything is copied. -/
  | relayed {target : Bytes} {route : Route} {p : Pump} (relayed : Relayed K r target route p)
    (finished : p.finished = true)

/-- A goroutine is about to use the tunnel, after it has dialled directly or not. -/
structure Tunnelling (K : Config) (r : Record) (target : Bytes) (bypassFailed : Bool) : Prop
    extends Fresh r where
  /-- The target. -/
  asked : r.target = some target
  /-- The port is not blocked. -/
  allowed : isBitTorrentPort target = false
  /-- It has dialled directly if the policy asks for that. -/
  direct : K.goesDirect r.should target = bypassFailed
  /-- But not in the local network. -/
  notLAN : bypassFailed = true → isLANAddress target = false
  /-- The ways that it dialled. -/
  dials : r.dials = if bypassFailed then [(.direct, false)] else []

theorem Tunnelling.tried {bypassFailed : Bool} (h : Tunnelling K r target bypassFailed) :
    Tried K r.should target r.dials := by
  rw [h.dials]
  split <;> rename_i hfailed
  · exact .direct false h.allowed (h.direct.trans hfailed)
  · exact .nothing

/-- What a goroutine has done when it is at a given place. -/
def Inv (K : Config) (h : Handler) : Prop :=
  match h.pc with
  | .reading | .associating => Fresh h.toRecord ∧ h.target = none ∧ h.dials = []
  | .connecting target => Fresh h.toRecord ∧ h.target = some target ∧ h.dials = []
  | .bypassing target lan => Fresh h.toRecord ∧ h.target = some target ∧ h.dials = [] ∧
    isBitTorrentPort target = false ∧ K.goesDirect h.should target = true ∧
      lan = isLANAddress target
  | .waiting target bypassFailed | .picking target bypassFailed | .dialling target bypassFailed =>
    Tunnelling K h.toRecord target bypassFailed
  | .recording ok => Fresh h.toRecord ∧ h.dials = [(.direct, false), (K.through, ok)] ∧
    ∃ target, h.target = some target ∧ Tried K h.should target h.dials
  | .relaying _ => ∃ target route p, Relayed K h.toRecord target route p
  | .associated => h.target = none ∧ Settled K h.toRecord
  | .returning _ | .ended => Settled K h.toRecord

theorem inv_new (ip : Bytes) : Inv K (.new ip) := ⟨⟨rfl, rfl, rfl⟩, rfl, rfl⟩

/-- The goroutine gives up. -/
theorem inv_fail {slot : Bool} (hreplies : h.replies = []) (hrelay : h.relay = none)
    (hdialled : Dialled K h.toRecord target) (hfailure : Failure K h.toRecord target) :
    Inv K (h.reply (socks5Reply repGenFail) (.returning slot)) := by
  refine .failed ⟨hdialled.asked, hdialled.tried, hdialled.recorded⟩ hrelay
    (congrArg (· ++ [_]) hreplies) ?_
  cases hfailure with
  | blocked port dials => exact .blocked port dials
  | unreachable lan dials => exact .unreachable lan dials
  | noDialer noDialer dials => exact .noDialer noDialer dials
  | dial last => exact .dial last

/-- The goroutine starts to copy. -/
theorem inv_start {route : Route} {slot : Bool} (hreplies : h.replies = [])
    (hdialled : Dialled K h.toRecord target) (hlast : h.dials.getLast? = some (route, true)) :
    Inv K (h.start route slot) :=
  ⟨target, route, .new, ⟨hdialled.asked, hdialled.tried, hdialled.recorded⟩,
    congrArg (· ++ [_]) hreplies, rfl, hlast, rfl, rfl⟩

theorem inv_afterDial {ok : Bool} (hreplies : h.replies = []) (hrelay : h.relay = none)
    (hdialled : Dialled K h.toRecord target) (hlast : h.dials.getLast? = some (K.through, ok)) :
    Inv K (h.afterDial K ok) := by
  rw [Handler.afterDial]
  split <;> rename_i hok
  · exact inv_start hreplies hdialled (hok ▸ hlast)
  · exact inv_fail hreplies hrelay hdialled (.dial ((Bool.not_eq_true _).mp hok ▸ hlast))

theorem length_handleRequest (input : Bytes) : (handleRequest input).1.length ≤ 1 := by
  rw [handleRequest]
  split
  · exact Nat.zero_le _
  · split
    · exact Nat.zero_le _
    · split
      · exact le_rfl
      · exact Nat.zero_le _
      · split
        · exact Nat.zero_le _
        · dsimp only
          split
          · exact Nat.zero_le _
          · split
            · exact Nat.zero_le _
            · exact le_rfl

/-- The request that cannot be followed is answered once at most. -/
theorem length_written (input : Bytes) : ((handle input).written.drop 1).length ≤ 1 := by
  rw [handle]
  split
  · exact Nat.zero_le _
  · split
    · exact Nat.zero_le _
    · split
      · exact Nat.zero_le _
      · split
        · exact Nat.zero_le _
        · exact length_handleRequest _

theorem Inv.moves (hinv : Inv K h) (hmoves : Moves K tokens h tokens' h') : Inv K h' := by
  cases hmoves with
  | @refuse input pc =>
    simp only [Inv, pc] at hinv
    obtain ⟨hfresh, htarget, hdials⟩ := hinv
    exact .other htarget hdials hfresh.recorded hfresh.relay (length_written input)
  | connect pc =>
    simp only [Inv, pc] at hinv
    obtain ⟨hfresh, -, hdials⟩ := hinv
    exact ⟨⟨hfresh.replies, hfresh.recorded, hfresh.relay⟩, rfl, hdials⟩
  | block pc blocked =>
    simp only [Inv, pc] at hinv
    obtain ⟨hfresh, htarget, hdials⟩ := hinv
    exact inv_fail hfresh.replies hfresh.relay
      (hfresh.dialled htarget (hdials ▸ .nothing) (by simp [hdials])) (.blocked blocked hdials)
  | bypass pc allowed direct =>
    simp only [Inv, pc] at hinv
    obtain ⟨hfresh, htarget, hdials⟩ := hinv
    exact ⟨⟨hfresh.replies, hfresh.recorded, hfresh.relay⟩, htarget, hdials, allowed, direct, rfl⟩
  | enqueue pc allowed direct =>
    simp only [Inv, pc] at hinv
    obtain ⟨hfresh, htarget, hdials⟩ := hinv
    exact ⟨⟨hfresh.replies, hfresh.recorded, hfresh.relay⟩, htarget, allowed, direct,
      fun h ↦ absurd h Bool.false_ne_true, hdials⟩
  | @direct target lan pc =>
    simp only [Inv, pc] at hinv
    obtain ⟨hfresh, htarget, hdials, hallowed, hdirect, -⟩ := hinv
    have hfresh := hfresh.dial (.direct, true)
    exact inv_start hfresh.replies (hfresh.dialled htarget
      (by rw [hdials]; exact .direct true hallowed hdirect) (by simp [hdials])) (by simp)
  | unreachable pc =>
    simp only [Inv, pc] at hinv
    obtain ⟨hfresh, htarget, hdials, hallowed, hdirect, hlan⟩ := hinv
    have hfresh := hfresh.dial (.direct, false)
    exact inv_fail hfresh.replies hfresh.relay (hfresh.dialled htarget
      (by rw [hdials]; exact .direct false hallowed hdirect) (by simp [hdials]))
      (.unreachable hlan.symm (congrArg (· ++ [_]) hdials))
  | retry pc =>
    simp only [Inv, pc] at hinv
    obtain ⟨hfresh, htarget, hdials, hallowed, hdirect, hlan⟩ := hinv
    exact ⟨hfresh.dial (.direct, false), htarget, hallowed, hdirect, fun _ ↦ hlan.symm,
      congrArg (· ++ [_]) hdials⟩
  | noDialer pc =>
    simp only [Inv, pc] at hinv
    refine inv_fail hinv.replies hinv.relay ⟨hinv.asked, hinv.tried, ?_⟩ (.noDialer rfl ?_)
    · refine iff_of_false (fun h ↦ Bool.false_ne_true (hinv.recorded ▸ h)) (not_fellback ?_)
      rw [hinv.dials]
      split <;> simp
    · show h.dials = [] ∨ h.dials = _
      rw [hinv.dials]
      split
      · exact .inr rfl
      · exact .inl rfl
  | @dialAgain target ok pc =>
    simp only [Inv, pc] at hinv
    have hdials : h.dials ++ [(K.through, ok)] = [(.direct, false), (K.through, ok)] := by
      rw [hinv.dials]
      rfl
    refine ⟨hinv.toFresh.dial (K.through, ok), hdials, target, hinv.asked, ?_⟩
    rw [hdials]
    exact .both ok hinv.allowed hinv.direct (hinv.notLAN rfl)
  | @dial target bypassFailed ok pc first =>
    simp only [Inv, pc] at hinv
    have hfresh := hinv.toFresh.dial (K.through, ok)
    -- a goroutine whose bypass has failed does have a bypass manager
    have hfirst : bypassFailed = false := by
      rw [Bool.eq_false_iff]
      intro hfailed
      have hdirect := hinv.direct.trans hfailed
      rw [Config.goesDirect, Bool.and_eq_true_iff, Bool.and_eq_true_iff] at hdirect
      rw [hfailed, hdirect.1.2] at first
      cases first
    have hdials : h.dials = [] := by rw [hinv.dials, hfirst]; rfl
    exact inv_afterDial hfresh.replies hfresh.relay (hfresh.dialled hinv.asked
      (by rw [hdials]; exact .through ok hinv.allowed (hinv.direct.trans hfirst))
      (by simp [hdials])) (by simp)
  | @record ok pc =>
    simp only [Inv, pc] at hinv
    obtain ⟨hfresh, hdials, target, htarget, htried⟩ := hinv
    exact inv_afterDial hfresh.replies hfresh.relay
      ⟨htarget, htried, iff_of_true rfl ⟨ok, hdials⟩⟩ (by simp [hdials])
  | copy pc relay step =>
    simp only [Inv, pc] at hinv
    obtain ⟨target, route, p, hrelayed⟩ := hinv
    obtain ⟨rfl, rfl⟩ := Prod.mk.inj (Option.some_inj.mp (hrelayed.relay.symm.trans relay))
    rw [Inv.eq_def]
    simp only [pc]
    exact ⟨target, route, _, ⟨hrelayed.dialled.asked, hrelayed.dialled.tried,
      hrelayed.dialled.recorded⟩, hrelayed.replies, rfl, hrelayed.last, hrelayed.faithful.step step⟩
  | copied pc relay finished =>
    simp only [Inv, pc] at hinv
    obtain ⟨target, route, p, hrelayed⟩ := hinv
    obtain ⟨rfl, rfl⟩ := Prod.mk.inj (Option.some_inj.mp (hrelayed.relay.symm.trans relay))
    exact .relayed hrelayed finished
  | associate pc next =>
    simp only [Inv, pc] at hinv
    obtain ⟨hfresh, htarget, hdials⟩ := hinv
    have hsettled {reply : Bytes} : Settled K { h.toRecord with replies := h.replies ++ [reply] } :=
      .other htarget hdials hfresh.recorded hfresh.relay (by simp [hfresh.replies])
    rcases next with rfl | rfl
    · exact hsettled
    · exact ⟨htarget, hsettled⟩
  | dissociate pc =>
    simp only [Inv, pc] at hinv
    exact hinv.2
  | acquire pc room | udpAssoc pc | pick pc | leave pc | release pc =>
    simp only [Inv, pc] at hinv
    exact hinv

/-- How far a goroutine has come. -/
inductive Stage (K : Config) (h : Handler) : Prop where
  /-- There is no CONNECT. -/
  | other (target : h.target = none) (dials : h.dials = []) (recorded : h.recorded = false)
    (relay : h.relay = none) (replies : h.replies.length ≤ 1)
  /-- There is a CONNECT, which is not answered yet. -/
  | pending {target : Bytes} (fresh : Fresh h.toRecord) (asked : h.target = some target)
    (tried : Tried K h.should target h.dials) (pc : h.pc ≠ .ended)
  /-- The CONNECT failed. -/
  | failed {target : Bytes} (dialled : Dialled K h.toRecord target) (relay : h.relay = none)
    (replies : h.replies = [socks5Reply repGenFail]) (failure : Failure K h.toRecord target)
  /-- It worked. -/
  | relayed {target : Bytes} {route : Route} {p : Pump}
    (relayed : Relayed K h.toRecord target route p) (finished : h.pc = .ended → p.finished = true)

theorem Settled.stage (hsettled : Settled K h.toRecord) : Stage K h := by
  cases hsettled with
  | other target dials recorded relay replies => exact .other target dials recorded relay replies
  | failed dialled relay replies failure => exact .failed dialled relay replies failure
  | relayed relayed finished => exact .relayed relayed fun _ ↦ finished

theorem Inv.stage (hinv : Inv K h) : Stage K h := by
  rw [Inv.eq_def] at hinv
  split at hinv <;> rename_i hpc
  case h_1 | h_2 =>
    obtain ⟨hfresh, htarget, hdials⟩ := hinv
    exact .other htarget hdials hfresh.recorded hfresh.relay (by simp [hfresh.replies])
  case h_3 =>
    obtain ⟨hfresh, htarget, hdials⟩ := hinv
    exact .pending hfresh htarget (hdials ▸ .nothing) (by simp [hpc])
  case h_4 =>
    obtain ⟨hfresh, htarget, hdials, -⟩ := hinv
    exact .pending hfresh htarget (hdials ▸ .nothing) (by simp [hpc])
  case h_5 | h_6 | h_7 =>
    exact .pending hinv.toFresh hinv.asked hinv.tried (by simp [hpc])
  case h_8 ok =>
    obtain ⟨hfresh, -, target, htarget, htried⟩ := hinv
    exact .pending hfresh htarget htried (by simp [hpc])
  case h_9 =>
    obtain ⟨target, route, p, hrelayed⟩ := hinv
    exact .relayed hrelayed fun h ↦ by simp [hpc] at h
  case h_10 => exact hinv.2.stage
  case h_11 | h_12 => exact hinv.stage

/-- **A goroutine does what the protocol and the routing policy ask for.** -/
structure Proper (K : Config) (h : Handler) : Prop where
  /-- The request is answered once at most. -/
  once : h.replies.length ≤ 1
  /-- In the end a CONNECT is answered. -/
  answered : h.pc = .ended → h.target ≠ none → h.replies.length = 1
  /-- A CONNECT is answered with success exactly if something is copied. -/
  success : h.target ≠ none → (h.replies = [socks5Reply repSuccess] ↔ h.relay ≠ none)
  /-- Without a CONNECT nothing is dialled, and nothing copied. -/
  idle : h.target = none → h.dials = [] ∧ h.relay = none
  /-- The ways that are dialled. -/
  tried : ∀ target, h.target = some target → Tried K h.should target h.dials
  /-- If nothing is copied in the end, there is a reason: after a direct connection that failed the
  tunnel was dialled too, unless the target is in the local network or there is no dialer. -/
  failed : ∀ target, h.pc = .ended → h.target = some target → h.relay = none →
    Failure K h.toRecord target
  /-- That bypassing failed is recorded only if the tunnel was dialled after it. -/
  recorded : h.recorded = true → h.Fellback K
  /-- If the tunnel was dialled after it, it is recorded in the end. -/
  records : h.pc = .ended → h.Fellback K → h.recorded = true
  /-- It copies to and from the connection that was made last, and each side gets a beginning of
  what the other has sent. -/
  copied : ∀ route p, h.relay = some (route, p) → h.dials.getLast? = some (route, true) ∧
    p.up.given <+: p.up.taken ∧ p.down.given <+: p.down.taken
  /-- In the end both copies have ended and closed their destinations. -/
  closed : ∀ route p, h.pc = .ended → h.relay = some (route, p) → p.finished = true

theorem Stage.proper (hstage : Stage K h) : Proper K h := by
  cases hstage with
  | other target dials recorded relay replies =>
    exact {
      once := replies
      answered := fun _ h ↦ absurd target h
      success := fun h ↦ absurd target h
      idle := fun _ ↦ ⟨dials, relay⟩
      tried := fun _ h ↦ by rw [target] at h; cases h
      failed := fun _ _ h ↦ by rw [target] at h; cases h
      recorded := fun h ↦ by rw [recorded] at h; cases h
      records := fun _ h ↦ absurd h (not_fellback (by simp [dials]))
      copied := fun _ _ h ↦ by rw [relay] at h; cases h
      closed := fun _ _ _ h ↦ by rw [relay] at h; cases h }
  | pending fresh asked tried pc =>
    exact {
      once := by simp [fresh.replies]
      answered := fun h ↦ absurd h pc
      success := fun _ ↦ by simp [fresh.replies, fresh.relay]
      idle := fun h ↦ by rw [asked] at h; cases h
      tried := fun _ h ↦ Option.some_inj.mp (asked.symm.trans h) ▸ tried
      failed := fun _ h ↦ absurd h pc
      recorded := fun h ↦ by rw [fresh.recorded] at h; cases h
      records := fun h ↦ absurd h pc
      copied := fun _ _ h ↦ by rw [fresh.relay] at h; cases h
      closed := fun _ _ h ↦ absurd h pc }
  | failed dialled relay replies failure =>
    exact {
      once := by simp [replies]
      answered := fun _ _ ↦ by simp [replies]
      success := fun _ ↦ by
        rw [replies, relay]
        exact iff_of_false (by decide) (fun h ↦ h rfl)
      idle := fun h ↦ by rw [dialled.asked] at h; cases h
      tried := fun _ h ↦ Option.some_inj.mp (dialled.asked.symm.trans h) ▸ dialled.tried
      failed := fun _ _ h _ ↦ Option.some_inj.mp (dialled.asked.symm.trans h) ▸ failure
      recorded := dialled.recorded.mp
      records := fun _ ↦ dialled.recorded.mpr
      copied := fun _ _ h ↦ by rw [relay] at h; cases h
      closed := fun _ _ _ h ↦ by rw [relay] at h; cases h }
  | relayed relayed finished =>
    exact {
      once := by simp [relayed.replies]
      answered := fun _ _ ↦ by simp [relayed.replies]
      success := fun _ ↦ by
        rw [relayed.replies, relayed.relay]
        exact iff_of_true rfl (fun h ↦ nomatch h)
      idle := fun h ↦ by rw [relayed.dialled.asked] at h; cases h
      tried := fun _ h ↦
        Option.some_inj.mp (relayed.dialled.asked.symm.trans h) ▸ relayed.dialled.tried
      failed := fun _ _ _ h ↦ by rw [relayed.relay] at h; cases h
      recorded := relayed.dialled.recorded.mp
      records := fun _ ↦ relayed.dialled.recorded.mpr
      copied := fun _ _ h ↦ by
        obtain ⟨rfl, rfl⟩ := Prod.mk.inj (Option.some_inj.mp (relayed.relay.symm.trans h))
        exact ⟨relayed.last, relayed.faithful.up.isPrefix, relayed.faithful.down.isPrefix⟩
      closed := fun _ _ hpc h ↦ by
        obtain ⟨rfl, rfl⟩ := Prod.mk.inj (Option.some_inj.mp (relayed.relay.symm.trans h))
        exact finished hpc }

theorem inv_step {e : Event} (hs : ∀ h ∈ s.handlers, Inv K h) (hstep : s.step K e = some s') :
    ∀ h ∈ s'.handlers, Inv K h := by
  cases e with
  | accept ip =>
    rw [Server.step, Option.some_inj] at hstep
    subst hstep
    intro h hmem
    rcases List.mem_append.mp hmem with hmem | hmem
    · exact hs h hmem
    · exact List.mem_singleton.mp hmem ▸ inv_new ip
  | handler i e =>
    obtain ⟨h, hi, hstep⟩ := Option.bind_eq_some_iff.mp hstep
    obtain ⟨⟨tokens', h'⟩, hh, rfl⟩ := Option.map_eq_some_iff.mp hstep
    intro g hmem
    rcases List.mem_or_eq_of_mem_set hmem with hmem | rfl
    · exact hs g hmem
    · exact (hs h (List.mem_of_getElem? hi)).moves (moves_of_step hh)

/-- **The server keeps to the protocol and to its routing policy.**  Whatever the clients send,
whatever is dialled, read and written, and in whatever order the goroutines run. -/
theorem handlers_proper {es : List Event} (hrun : exec (Server.step K) .new es = some s) :
    ∀ h ∈ s.handlers, Proper K h := by
  have hinv : ∀ h ∈ s.handlers, Inv K h :=
    Trace.inv_of_exec (P := fun s : Server ↦ ∀ h ∈ s.handlers, Inv K h) inv_step
      (fun h hmem ↦ absurd hmem List.not_mem_nil) hrun
  exact fun h hmem ↦ (hinv h hmem).stage.proper

/-- A client whose connection is tried directly first, and then made through the tunnel; one byte is
copied each way. -/
def fallsBack : List Event :=
  [.accept [49], .handler 0 (.request connectEight), .handler 0 (.decide true),
    .handler 0 (.dialled false), .handler 0 .acquire, .handler 0 (.pick true),
    .handler 0 (.dialled true), .handler 0 .record, .handler 0 (.copy true (.read [7])),
    .handler 0 (.copy false (.read [8])), .handler 0 (.copy false (.write none)),
    .handler 0 (.copy true (.write none)), .handler 0 (.copy true .eof),
    .handler 0 (.copy false .eof), .handler 0 (.copy true .close), .handler 0 (.copy false .close),
    .handler 0 .finish, .handler 0 .leave]

theorem handlers_proper_falls_back :
    ∃ s h, exec (Server.step (newSOCKS5ServerWithPool true false)) .new fallsBack = some s ∧
      s.handlers = [h] ∧ h.pc = .ended ∧ h.recorded = true ∧
        h.replies = [socks5Reply repSuccess] ∧ Proper (newSOCKS5ServerWithPool true false) h := by
  have hsummary :
      (exec (Server.step (newSOCKS5ServerWithPool true false)) .new fallsBack).map (fun s ↦
        s.handlers.map (fun h ↦ (h.pc, h.recorded, h.replies))) =
        some [(.ended, true, [socks5Reply repSuccess])] := by
    decide +kernel
  obtain ⟨s, hs, heq⟩ := Option.map_eq_some_iff.mp hsummary
  obtain ⟨h, hh, heq⟩ := List.map_eq_singleton_iff.mp heq
  rw [Prod.mk.injEq, Prod.mk.injEq] at heq
  refine ⟨s, h, hs, hh, heq.1, heq.2.1, heq.2.2, handlers_proper hs h ?_⟩
  rw [hh]
  exact List.mem_singleton_self h

end TunnelCat.Socks
