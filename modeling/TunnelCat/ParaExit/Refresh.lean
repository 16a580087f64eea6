import TunnelCat.Lib.Trace

/-!
# The hourly refresh of a para-exit

A para-exit client keeps a session with every exit of its region.  `loop` fetches the list of exits,
starts a goroutine `connectToExit` for each, and after an hour closes `childStop`, waits until they
have all returned, and starts over.  A goroutine runs one session after the other.  `runSession`
dials, registers, starts a goroutine that closes the session after ten to thirty minutes, and then
waits in `AcceptStream`.

`childStop` is meant to end all of this, but `AcceptStream` does not look at it.  The goroutine for
the planned reconnect does, and leaves without closing the session.  So after an hour the goroutines
that would have closed the sessions are gone, `runSession` goes on waiting, and `loop` waits for it.

`never_wedged_iff` says exactly when this does not happen, `wedged_after_hour` is a run in which it
does, and `Wedged.exec` says that it is for good: as long as the exit keeps the session open and
nobody calls `Stop`, every run from such a state stays in such states.

The model has the four kinds of goroutines and every order of their steps.  Timers can go off at any
time.  The steps between two points where a goroutine can wait are one step, so for instance a
session enters `c.sessions` in the step in which it is made.
-/

set_option autoImplicit false

open Trace

namespace TunnelCat.ParaExit

/-! ## The goroutines -/

/-- Where `loop` is. -/
inductive LoopPhase where
  /-- Before `c.active.Load()`. -/
  | checking
  /-- In `fetchExits`. -/
  | fetching
  /-- In one of the two `select` statements that wait for the next attempt. -/
  | retrying
  /-- In the `select` that waits for an hour. -/
  | serving
  /-- In `wg.Wait`, after it has closed `childStop`; it returns afterwards if `Stop` was seen. -/
  | waiting (stopped : Bool)
  /-- It has returned. -/
  | returned
  deriving DecidableEq, Repr

/-- Where a goroutine `connectToExit` is. -/
inductive ConnPhase where
  /-- Before the `select` at the top of its loop. -/
  | checking
  /-- In `runSession`, before there is a session. -/
  | dialing
  /-- In `register`. -/
  | registering (j : ℕ)
  /-- In `AcceptStream`. -/
  | accepting (j : ℕ)
  /-- In the `select` that waits for the next attempt. -/
  | retrying
  /-- It has returned. -/
  | returned
  deriving DecidableEq, Repr

/-- The session of `runSession`. -/
def ConnPhase.session : ConnPhase → Option ℕ
  | .registering j | .accepting j => some j
  | _ => none

/-- Where the goroutine for the planned reconnect is, as long as it has not ended. -/
inductive ReconnectPhase where
  /-- In its `select`. -/
  | waiting
  /-- In `time.Sleep`. -/
  | grace
  /-- Before `session.Close()`. -/
  | closing
  deriving DecidableEq, Repr

/-- A yamux session. -/
structure Session where
  /-- Neither side has closed it. -/
  isOpen : Bool
  /-- `plannedReconnect` is closed. -/
  planned : Bool
  /-- The goroutine for the planned reconnect, while there is one. -/
  reconnect : Option ReconnectPhase
  /-- The round of `loop` whose `childStop` is the `stop` of the session. -/
  round : ℕ
  deriving DecidableEq, Repr

/-- A client, and its goroutines. -/
structure Client where
  /-- `active`. -/
  active : Bool
  /-- `c.stop` is closed. -/
  stopClosed : Bool
  /-- `Stop` has closed `c.stop` and has not come to the sessions yet. -/
  stopping : Bool
  /-- `loop`. -/
  loop : LoopPhase
  /-- The number of times `loop` has started goroutines. -/
  round : ℕ
  /-- The `childStop` of this round is closed. -/
  childStop : Bool
  /-- The goroutines of this round. -/
  conns : List ConnPhase
  /-- Every session there has been. -/
  table : List Session
  /-- `c.sessions`. -/
  sessions : List ℕ
  deriving DecidableEq, Repr

/-- What `loop` can do. -/
inductive LoopEvent where
  /-- It looks at `active`. -/
  | check
  /-- `fetchExits` returns, with the exits unless it fails. -/
  | fetched (exits : Option (List String))
  /-- The time until the next attempt is over. -/
  | timer
  /-- It receives from `c.stop`. -/
  | stop
  /-- The hour is over. -/
  | hour
  /-- `wg.Wait` returns. -/
  | waited
  deriving DecidableEq, Repr

/-- What a goroutine `connectToExit` can do. -/
inductive ConnEvent where
  /-- It looks at the stop signals. -/
  | check
  /-- Dialling, or what follows until there is a session, fails. -/
  | dialFails
  /-- There is a session. -/
  | dialled
  /-- `register` fails. -/
  | registerFails
  /-- `register` succeeds. -/
  | registered
  /-- `AcceptStream` returns a stream. -/
  | accepted
  /-- `AcceptStream` fails. -/
  | acceptFails
  /-- The time until the next attempt is over. -/
  | timer
  /-- It receives from a stop channel while it waits for the next attempt. -/
  | stop
  deriving DecidableEq, Repr

/-- What the goroutine for the planned reconnect can do. -/
inductive ReconnectEvent where
  /-- The session has lasted long enough. -/
  | timer
  /-- The sleep is over, and `plannedReconnect` is closed. -/
  | planned
  /-- The session is closed. -/
  | close
  /-- It receives from a stop channel and returns. -/
  | leave
  deriving DecidableEq, Repr

/-- What can happen. -/
inductive Event where
  /-- In `loop`. -/
  | loop (e : LoopEvent)
  /-- In the `k`-th goroutine `connectToExit` of this round. -/
  | conn (k : ℕ) (e : ConnEvent)
  /-- In the goroutine for the planned reconnect of the `j`-th session. -/
  | reconnect (j : ℕ) (e : ReconnectEvent)
  /-- The exit closes the `j`-th session, or the connection breaks. -/
  | remoteCloses (j : ℕ)
  /-- `Stop` is called and closes `c.stop`, unless it has been called before. -/
  | stop
  /-- `Stop` closes the sessions. -/
  | stopSessions
  deriving DecidableEq, Repr

namespace Client

variable (s : Client)

/-- The session is open. -/
def isOpen (j : ℕ) : Bool := s.table[j]?.any Session.isOpen

/-- There is a goroutine that is going to close the session. -/
def attended (j : ℕ) : Bool := s.table[j]?.any fun x ↦ x.reconnect.isSome

/-- One of the stop channels of `connectToExit` is closed. -/
def stopSeen : Bool := s.stopClosed || s.childStop

/-- `loop` is in `wg.Wait`. -/
def waits : Bool :=
  match s.loop with
  | .waiting _ => true
  | _ => false

/-- A goroutine goes on, without a session. -/
def goTo (k : ℕ) (p : ConnPhase) : Client := { s with conns := s.conns.set k p }

/-- A goroutine has made a session. -/
def openSession (k : ℕ) : Client :=
  { s with
    conns := s.conns.set k (.registering s.table.length)
    table := s.table ++ [⟨true, false, none, s.round⟩]
    sessions := s.sessions ++ [s.table.length] }

/-- A goroutine starts the one for the planned reconnect. -/
def startReconnect (k j : ℕ) : Client :=
  { s with
    conns := s.conns.set k (.accepting j)
    table := s.table.modify j fun x ↦ { x with reconnect := some .waiting } }

/-- A session is closed, by one side or the other. -/
def close (j : ℕ) : Client :=
  { s with table := s.table.modify j fun x ↦ { x with isOpen := false } }

/-- `runSession` returns: the session is closed and leaves `c.sessions`. -/
def endSession (k j : ℕ) (p : ConnPhase) : Client :=
  { s.close j with
    conns := s.conns.set k p
    sessions := s.sessions.erase j }

/-- `Stop` closes the sessions of `c.sessions`. -/
def closeSessions : Client :=
  { s with
    stopping := false
    table := s.table.mapIdx fun j x ↦ if j ∈ s.sessions then { x with isOpen := false } else x
    sessions := [] }

/-- A step of `loop`. -/
def stepLoop : LoopPhase → LoopEvent → Option Client
  | .checking, .check => some { s with loop := if s.active then .fetching else .returned }
  | .fetching, .fetched none => some { s with loop := .retrying }
  | .fetching, .fetched (some exits) =>
    if exits = [] then some { s with loop := .retrying }
    else
      some { s with
        loop := .serving
        round := s.round + 1
        childStop := false
        conns := exits.map fun _ ↦ .checking }
  | .retrying, .timer => some { s with loop := .checking }
  | .retrying, .stop => if s.stopClosed then some { s with loop := .returned } else none
  | .serving, .stop =>
    if s.stopClosed then some { s with loop := .waiting true, childStop := true } else none
  | .serving, .hour => some { s with loop := .waiting false, childStop := true }
  | .waiting stopped, .waited =>
    if ∀ p ∈ s.conns, p = .returned then
      some { s with loop := if stopped then .returned else .checking }
    else none
  | _, _ => none

/-- A step of a goroutine `connectToExit`. -/
def stepConn (k : ℕ) : ConnPhase → ConnEvent → Option Client
  | .checking, .check => some (s.goTo k (if s.stopSeen then .returned else .dialing))
  | .dialing, .dialFails => some (s.goTo k .retrying)
  | .dialing, .dialled => some (s.openSession k)
  | .registering j, .registerFails => some (s.endSession k j .retrying)
  | .registering j, .registered => some (s.startReconnect k j)
  | .accepting j, .accepted => if s.isOpen j then some s else none
  | .accepting j, .acceptFails =>
    if s.isOpen j then none
    else some (s.endSession k j (if s.table[j]?.any Session.planned then .checking else .retrying))
  | .retrying, .timer => some (s.goTo k .checking)
  | .retrying, .stop => if s.stopSeen then some (s.goTo k .returned) else none
  | _, _ => none

/-- A step of the goroutine for the planned reconnect: what becomes of its session.  The `stop` of
a session of an earlier round is closed. -/
def stepReconnect (x : Session) : ReconnectPhase → ReconnectEvent → Option Session
  | .waiting, .timer => some { x with reconnect := some .grace }
  | .grace, .planned => some { x with reconnect := some .closing, planned := true }
  | .closing, .close => some { x with reconnect := none, isOpen := false }
  | .waiting, .leave =>
    if s.stopClosed ∨ s.childStop ∨ x.round < s.round then some { x with reconnect := none }
    else none
  | _, _ => none

/-- A step of the client. -/
def step : Event → Option Client
  | .loop e => s.stepLoop s.loop e
  | .conn k e => s.conns[k]?.bind fun p ↦ s.stepConn k p e
  | .reconnect j e => do
    let x ← s.table[j]?
    let p ← x.reconnect
    let y ← s.stepReconnect x p e
    return { s with table := s.table.set j y }
  | .remoteCloses j => some (s.close j)
  | .stop =>
    if s.active then some { s with active := false, stopClosed := true, stopping := true }
    else some s
  | .stopSessions => if s.stopping then some s.closeSessions else none

/-- A client when `Start` has been called. -/
def started : Client := ⟨true, false, false, .checking, 0, false, [], [], []⟩

/-- A goroutine is in `AcceptStream` on a session that is open and that the goroutine for the
planned reconnect is not going to close. -/
def Deserted (j : ℕ) : Prop :=
  .accepting j ∈ s.conns ∧ s.isOpen j = true ∧ s.attended j = false

/-- **The wedge**: `loop` waits for a goroutine that waits for a session which stays open, and
neither the goroutine for the planned reconnect nor `Stop` is going to close it. -/
def Wedged : Prop := s.waits = true ∧ s.stopping = false ∧ ∃ j, s.Deserted j

/-- The step does not bring the wedge about: no goroutine for a planned reconnect leaves a session
open that `loop` waits for, and `loop` does not begin to wait for a session that was left. -/
def Spares : Event → Prop
  | .reconnect j .leave =>
    s.waits = true → s.stopping = false → .accepting j ∈ s.conns → s.isOpen j = false
  | .loop .hour | .loop .stop =>
    s.loop = .serving → s.stopping = false → ∀ j, ¬s.Deserted j
  | _ => True

instance (j : ℕ) : Decidable (s.Deserted j) := inferInstanceAs (Decidable (_ ∧ _ ∧ _))

instance : Decidable (∀ j, ¬s.Deserted j) :=
  decidable_of_iff (∀ p ∈ s.conns, ∀ j ∈ p.session.toList, ¬s.Deserted j)
    ⟨fun h j hj ↦ h _ hj.1 j (List.mem_singleton_self j) hj, fun h _ _ j _ ↦ h j⟩

instance (e : Event) : Decidable (s.Spares e) :=
  match e with
  | .reconnect _ .leave => inferInstanceAs (Decidable (_ → _ → _ → _))
  | .loop .hour | .loop .stop => inferInstanceAs (Decidable (_ → _ → ∀ j, ¬s.Deserted j))
  | .loop .check | .loop (.fetched _) | .loop .timer | .loop .waited | .conn _ _
  | .reconnect _ .timer | .reconnect _ .planned | .reconnect _ .close
  | .remoteCloses _ | .stop | .stopSessions => isTrue trivial

/-- A goroutine is in `runSession` with this session. -/
def Holds (k j : ℕ) : Prop := ∃ p, s.conns[k]? = some p ∧ p.session = some j

/-- What holds in every state. -/
structure Wf : Prop where
  /-- The session of a goroutine has been made. -/
  made : ∀ k j, s.Holds k j → j < s.table.length
  /-- No two goroutines have the same session. -/
  alone : ∀ k k' j, s.Holds k j → s.Holds k' j → k = k'
  /-- `Stop` finds every session that is open. -/
  listed : ∀ k j, s.Holds k j → s.isOpen j = true → j ∈ s.sessions

variable {s} {t : Client} {j k : ℕ}

/-! ## What a step does to a goroutine and to a session -/

/-- The ways in which a goroutine `connectToExit` in phase `p` changes the client. -/
inductive ConnMove (s : Client) (k : ℕ) (p : ConnPhase) : Client → Prop
  /-- It has accepted a stream. -/
  | stays : ConnMove s k p s
  /-- It goes on without a session. -/
  | goes (q : ConnPhase) (hp : p.session = none) (hq : q.session = none) :
      ConnMove s k p (s.goTo k q)
  /-- It has made a session. -/
  | opens (hp : p.session = none) : ConnMove s k p (s.openSession k)
  /-- It has registered. -/
  | starts (j : ℕ) (hp : p = .registering j) : ConnMove s k p (s.startReconnect k j)
  /-- `runSession` has returned, and if it was in `AcceptStream`, the session was closed. -/
  | ends (j : ℕ) (q : ConnPhase) (hp : p.session = some j) (hq : q.session = none)
      (hclosed : p = .accepting j → s.isOpen j = false) : ConnMove s k p (s.endSession k j q)

variable {p : ConnPhase} {e : Event}

theorem connMove_of_stepConn {e : ConnEvent} (h : s.stepConn k p e = some t) :
    ConnMove s k p t := by
  rw [stepConn.eq_def] at h
  split at h
  · rw [Option.some_inj] at h
    refine h ▸ .goes _ rfl ?_
    split
    · rfl
    · rfl
  · exact Option.some_inj.mp h ▸ .goes _ rfl rfl
  · exact Option.some_inj.mp h ▸ .opens rfl
  · exact Option.some_inj.mp h ▸ .ends _ _ rfl rfl nofun
  · exact Option.some_inj.mp h ▸ .starts _ rfl
  · split at h
    · exact Option.some_inj.mp h ▸ .stays
    · exact absurd h (Option.some_ne_none t).symm
  · split at h
    · exact absurd h (Option.some_ne_none t).symm
    · rename_i hclosed
      rw [Option.some_inj] at h
      refine h ▸ .ends _ _ rfl ?_ fun _ ↦ eq_false_of_ne_true hclosed
      split
      · rfl
      · rfl
  · exact Option.some_inj.mp h ▸ .goes _ rfl rfl
  · split at h
    · exact Option.some_inj.mp h ▸ .goes _ rfl rfl
    · exact absurd h (Option.some_ne_none t).symm
  · exact absurd h (Option.some_ne_none t).symm

theorem ConnMove.frame (h : ConnMove s k p t) :
    t.loop = s.loop ∧ t.stopping = s.stopping := by
  cases h with
  | _ => exact ⟨rfl, rfl⟩

theorem waits_iff : s.waits = true ↔ ∃ b, s.loop = .waiting b := by
  rw [waits]
  split
  · rename_i b hb
    exact iff_of_true rfl ⟨b, hb⟩
  · rename_i hne
    exact iff_of_false Bool.false_ne_true fun ⟨b, hb⟩ ↦ hne b hb

/-- The ways in which `loop` changes the client. -/
inductive LoopMove (s : Client) (e : LoopEvent) : Client → Prop
  /-- It goes on, and does not wait for the goroutines. -/
  | goes (q : LoopPhase) (hq : ∀ b, q ≠ .waiting b) (hp : s.loop ≠ .serving)
      (hall : s.waits = true → ∀ p ∈ s.conns, p = .returned) : LoopMove s e { s with loop := q }
  /-- It starts the goroutines of a round. -/
  | begins (exits : List String) (hp : s.loop = .fetching) :
      LoopMove s e { s with
        loop := .serving
        round := s.round + 1
        childStop := false
        conns := exits.map fun _ ↦ .checking }
  /-- It closes `childStop` and waits. -/
  | waits (b : Bool) (hp : s.loop = .serving) (he : e = .hour ∨ e = .stop) :
      LoopMove s e { s with loop := .waiting b, childStop := true }

theorem loopMove_of_stepLoop {e : LoopEvent} (h : s.stepLoop s.loop e = some t) :
    LoopMove s e t := by
  -- The phases other than `serving` and `waiting` are left without a condition.
  have goes : ∀ {p q : LoopPhase}, s.loop = p → p ≠ .serving → (∀ b, p ≠ .waiting b) →
      (∀ b, q ≠ .waiting b) → LoopMove s e { s with loop := q } := by
    intro p q hp hserving hwaiting hq
    refine .goes q hq (hp ▸ hserving) fun hw ↦ ?_
    obtain ⟨b, hb⟩ := waits_iff.mp hw
    exact absurd (hp.symm.trans hb) (hwaiting b)
  rw [stepLoop.eq_def] at h
  split at h
  · rename_i hp
    rw [Option.some_inj] at h
    refine h ▸ goes hp nofun nofun ?_
    split
    · exact nofun
    · exact nofun
  · rename_i hp
    exact Option.some_inj.mp h ▸ goes hp nofun nofun nofun
  · rename_i hp
    split at h
    · exact Option.some_inj.mp h ▸ goes hp nofun nofun nofun
    · exact Option.some_inj.mp h ▸ .begins _ hp
  · rename_i hp
    exact Option.some_inj.mp h ▸ goes hp nofun nofun nofun
  · rename_i hp
    split at h
    · exact Option.some_inj.mp h ▸ goes hp nofun nofun nofun
    · exact absurd h (Option.some_ne_none t).symm
  · rename_i hp
    split at h
    · exact Option.some_inj.mp h ▸ .waits _ hp (.inr rfl)
    · exact absurd h (Option.some_ne_none t).symm
  · rename_i hp
    exact Option.some_inj.mp h ▸ .waits _ hp (.inl rfl)
  · rename_i hp
    split at h
    · rename_i hall
      rw [Option.some_inj] at h
      refine h ▸ .goes _ ?_ (hp ▸ nofun) fun _ ↦ hall
      split
      · exact nofun
      · exact nofun
    · exact absurd h (Option.some_ne_none t).symm
  · exact absurd h (Option.some_ne_none t).symm

/-- What the goroutine for the planned reconnect leaves: a session that is still open is one it is
still going to close, or one it has left as it was. -/
theorem stepReconnect_cases {x y : Session} {p : ReconnectPhase} {e : ReconnectEvent}
    (h : s.stepReconnect x p e = some y) :
    (e ≠ .leave ∧ (y.isOpen = true → x.isOpen = true ∧ y.reconnect.isSome = true)) ∨
      (e = .leave ∧ y = { x with reconnect := none }) := by
  rw [stepReconnect.eq_def] at h
  split at h
  · exact .inl (Option.some_inj.mp h ▸ ⟨nofun, fun ho ↦ ⟨ho, rfl⟩⟩)
  · exact .inl (Option.some_inj.mp h ▸ ⟨nofun, fun ho ↦ ⟨ho, rfl⟩⟩)
  · exact .inl (Option.some_inj.mp h ▸ ⟨nofun, nofun⟩)
  · split at h
    · exact .inr ⟨rfl, (Option.some_inj.mp h).symm⟩
    · exact absurd h (Option.some_ne_none y).symm
  · exact absurd h (Option.some_ne_none y).symm

theorem step_reconnect {e : ReconnectEvent} (h : s.step (.reconnect j e) = some t) :
    ∃ x p y, s.table[j]? = some x ∧ x.reconnect = some p ∧ s.stepReconnect x p e = some y ∧
      t = { s with table := s.table.set j y } := by
  simp only [step, Option.bind_eq_bind, Option.bind_eq_some_iff, Option.pure_def,
    Option.some_inj] at h
  obtain ⟨x, hx, p, hp, y, hy, rfl⟩ := h
  exact ⟨x, p, y, hx, hp, hy, rfl⟩

section Lists

variable {α : Type*}

theorem any_modify (l : List α) (i j : ℕ) (f : α → α) (p : α → Bool) :
    (l.modify i f)[j]?.any p = if i = j then l[j]?.any fun x ↦ p (f x) else l[j]?.any p := by
  rw [List.getElem?_modify]
  cases l[j]? with
  | none => simp
  | some x => by_cases h : i = j <;> simp [h]

theorem any_set {l : List α} {i : ℕ} {x : α} (hx : l[i]? = some x) (j : ℕ) (y : α)
    (p : α → Bool) : (l.set i y)[j]?.any p = if i = j then p y else l[j]?.any p := by
  rw [List.getElem?_set]
  split
  · rw [if_pos (List.getElem?_eq_some_iff.mp hx).1, Option.any_some]
  · rfl

end Lists

/-! ## The sessions after a step -/

theorem isOpen_openSession (hj : j ≠ s.table.length) :
    (s.openSession k).isOpen j = s.isOpen j := by
  rw [isOpen, openSession, List.getElem?_append, isOpen]
  split
  · rfl
  · rw [List.getElem?_eq_none (by rw [List.length_singleton]; omega),
      List.getElem?_eq_none (by omega)]

theorem attended_openSession : (s.openSession k).attended j = s.attended j := by
  rw [attended, openSession, List.getElem?_append, attended]
  split
  · rfl
  · rename_i hj
    have hnone : s.table[j]? = none := List.getElem?_eq_none (Nat.not_lt.mp hj)
    rw [hnone, List.getElem?_singleton]
    split
    · rfl
    · rfl

theorem isOpen_startReconnect (i : ℕ) : (s.startReconnect k i).isOpen j = s.isOpen j := by
  rw [isOpen, startReconnect, any_modify, isOpen]
  exact ite_self _

theorem attended_startReconnect {i : ℕ} (hi : i < s.table.length) :
    (s.startReconnect k i).attended j = (decide (i = j) || s.attended j) := by
  rw [attended, startReconnect, any_modify]
  split
  · rename_i hij
    subst hij
    rw [List.getElem?_eq_getElem hi, decide_eq_true rfl, Bool.true_or]
    rfl
  · rename_i hij
    rw [decide_eq_false hij, Bool.false_or, attended]

theorem isOpen_close (i : ℕ) : (s.close i).isOpen j = (s.isOpen j && decide (i ≠ j)) := by
  rw [isOpen, close, any_modify, isOpen]
  split
  · rename_i hij
    cases s.table[j]? <;> simp [hij]
  · rename_i hij
    rw [decide_eq_true hij, Bool.and_true]

theorem attended_close (i : ℕ) : (s.close i).attended j = s.attended j := by
  rw [attended, close, any_modify, attended]
  exact ite_self _

theorem isOpen_closeSessions :
    s.closeSessions.isOpen j = (s.isOpen j && decide (j ∉ s.sessions)) := by
  rw [isOpen, closeSessions, List.getElem?_mapIdx, isOpen]
  cases s.table[j]? with
  | none => rfl
  | some x => by_cases hj : j ∈ s.sessions <;> simp [hj]

/-! ## The invariant -/

/-- A goroutine that has a session after a step of the `k`-th one. -/
theorem Holds.of_set {q : ConnPhase} {k' : ℕ} (hconns : t.conns = s.conns.set k q)
    (h : t.Holds k' j) : (k' = k ∧ q.session = some j) ∨ (k' ≠ k ∧ s.Holds k' j) := by
  obtain ⟨p, hp, hj⟩ := h
  rw [hconns, List.getElem?_set] at hp
  split at hp
  · rename_i hk
    split at hp
    · rw [Option.some_inj] at hp
      exact .inl ⟨hk.symm, hp ▸ hj⟩
    · exact absurd hp (Option.some_ne_none p).symm
  · rename_i hk
    exact .inr ⟨fun h ↦ hk h.symm, p, hp, hj⟩

/-- A step in which no goroutine gets a session and `Stop` loses none that stays open. -/
theorem Wf.mono (h : s.Wf) (hholds : ∀ k j, t.Holds k j → s.Holds k j)
    (hlength : s.table.length ≤ t.table.length)
    (hopen : ∀ j, t.isOpen j = true → s.isOpen j = true ∧ (j ∈ s.sessions → j ∈ t.sessions)) :
    t.Wf where
  made k j hj := Nat.lt_of_lt_of_le (h.made k j (hholds k j hj)) hlength
  alone k k' j hj hj' := h.alone k k' j (hholds k j hj) (hholds k' j hj')
  listed k j hj hopen' :=
    (hopen j hopen').2 (h.listed k j (hholds k j hj) (hopen j hopen').1)

theorem Wf.openSession (h : s.Wf) (k : ℕ) : (s.openSession k).Wf := by
  have hset : (s.openSession k).conns = s.conns.set k (.registering s.table.length) := rfl
  have hnew : ∀ k' j, (s.openSession k).Holds k' j →
      (k' = k ∧ j = s.table.length) ∨ (k' ≠ k ∧ s.Holds k' j ∧ j < s.table.length) := by
    intro k' j hj
    rcases hj.of_set hset with ⟨hk, hj⟩ | ⟨hk, hj⟩
    · exact .inl ⟨hk, (Option.some_inj.mp hj).symm⟩
    · exact .inr ⟨hk, hj, h.made k' j hj⟩
  refine ⟨fun k' j hj ↦ ?_, fun k₁ k₂ j h₁ h₂ ↦ ?_, fun k' j hj hopen ↦ ?_⟩
  · rw [Client.openSession, List.length_append, List.length_singleton]
    rcases hnew k' j hj with ⟨-, hj⟩ | ⟨-, -, hj⟩
    · omega
    · omega
  · rcases hnew k₁ j h₁ with ⟨hk₁, hj₁⟩ | ⟨-, hj₁, hlt₁⟩
    · rcases hnew k₂ j h₂ with ⟨hk₂, -⟩ | ⟨-, -, hlt₂⟩
      · exact hk₁.trans hk₂.symm
      · omega
    · rcases hnew k₂ j h₂ with ⟨-, hj₂⟩ | ⟨-, hj₂, -⟩
      · omega
      · exact h.alone k₁ k₂ j hj₁ hj₂
  · rcases hnew k' j hj with ⟨-, rfl⟩ | ⟨-, hj, hlt⟩
    · exact List.mem_append_right _ (List.mem_singleton_self _)
    · rw [isOpen_openSession (Nat.ne_of_lt hlt)] at hopen
      exact List.mem_append_left _ (h.listed k' j hj hopen)

theorem Wf.connMove (h : s.Wf) (hp : s.conns[k]? = some p) (hmove : ConnMove s k p t) : t.Wf := by
  cases hmove with
  | stays => exact h
  | opens => exact h.openSession k
  | goes q hpn hq =>
    refine h.mono (fun k' j hj ↦ ?_) (Nat.le_refl _) fun j hj ↦ ⟨hj, id⟩
    rcases hj.of_set rfl with ⟨-, hj⟩ | ⟨-, hj⟩
    · exact absurd (hq.symm.trans hj) (Option.some_ne_none j).symm
    · exact hj
  | starts i hpi =>
    refine h.mono (fun k' j hj ↦ ?_) (by simp [startReconnect]) fun j hj ↦ ?_
    · rcases hj.of_set rfl with ⟨rfl, hij⟩ | ⟨-, hj⟩
      · exact ⟨p, hp, hpi ▸ hij⟩
      · exact hj
    · exact ⟨isOpen_startReconnect i ▸ hj, id⟩
  | ends i q hpi hq hclosed =>
    refine h.mono (fun k' j hj ↦ ?_) (by simp [endSession, close]) fun j hj ↦ ?_
    · rcases hj.of_set rfl with ⟨-, hj⟩ | ⟨-, hj⟩
      · exact absurd (hq.symm.trans hj) (Option.some_ne_none j).symm
      · exact hj
    · have hj : (s.close i).isOpen j = true := hj
      rw [isOpen_close, Bool.and_eq_true, decide_eq_true_eq] at hj
      exact ⟨hj.1, fun hmem ↦ (List.mem_erase_of_ne hj.2.symm).mpr hmem⟩

/-- **One step** keeps the invariant. -/
theorem Wf.step (h : s.Wf) (he : s.step e = some t) : t.Wf := by
  cases e with
  | loop e =>
    cases loopMove_of_stepLoop he with
    | goes q _ _ _ => exact h.mono (fun _ _ hj ↦ hj) (Nat.le_refl _) fun _ hj ↦ ⟨hj, id⟩
    | waits b _ _ => exact h.mono (fun _ _ hj ↦ hj) (Nat.le_refl _) fun _ hj ↦ ⟨hj, id⟩
    | begins exits _ =>
      refine h.mono (fun k j hj ↦ ?_) (Nat.le_refl _) fun _ hj ↦ ⟨hj, id⟩
      obtain ⟨p, hp, hj⟩ := hj
      obtain ⟨a, -, rfl⟩ := List.mem_map.mp (List.mem_of_getElem? hp)
      exact absurd hj (Option.some_ne_none j).symm
  | conn k e =>
    obtain ⟨p, hp, hc⟩ := Option.bind_eq_some_iff.mp he
    exact h.connMove hp (connMove_of_stepConn hc)
  | reconnect j e =>
    obtain ⟨x, p, y, hx, -, hy, rfl⟩ := step_reconnect he
    refine h.mono (fun _ _ hj ↦ hj) (by simp) fun i hi ↦ ⟨?_, id⟩
    rw [isOpen, any_set hx] at hi
    split at hi
    · rename_i hij
      subst hij
      rw [isOpen, hx, Option.any_some]
      rcases stepReconnect_cases hy with ⟨-, hkept⟩ | ⟨-, rfl⟩
      · exact (hkept hi).1
      · exact hi
    · exact hi
  | remoteCloses j =>
    rw [Client.step, Option.some_inj] at he
    subst he
    refine h.mono (fun _ _ hj ↦ hj) (by simp [close]) fun i hi ↦ ⟨?_, id⟩
    rw [isOpen_close, Bool.and_eq_true] at hi
    exact hi.1
  | stop =>
    rw [Client.step] at he
    split at he
    · rw [Option.some_inj] at he
      subst he
      exact h.mono (fun _ _ hj ↦ hj) (Nat.le_refl _) fun _ hj ↦ ⟨hj, id⟩
    · exact Option.some_inj.mp he ▸ h
  | stopSessions =>
    rw [Client.step] at he
    split at he
    · rw [Option.some_inj] at he
      subst he
      refine h.mono (fun _ _ hj ↦ hj) (by simp [closeSessions]) fun i hi ↦ ?_
      rw [isOpen_closeSessions, Bool.and_eq_true, decide_eq_true_eq] at hi
      exact ⟨hi.1, fun hmem ↦ absurd hmem hi.2⟩
    · exact absurd he (Option.some_ne_none t).symm

theorem wf_started : started.Wf := by
  have hnone : ∀ k j, ¬started.Holds k j := by
    rintro k j ⟨p, hp, -⟩
    exact absurd hp (by simp [started])
  exact ⟨fun k j hj ↦ absurd hj (hnone k j), fun k _ j hj ↦ absurd hj (hnone k j),
    fun k j hj ↦ absurd hj (hnone k j)⟩

/-! ## How the wedge comes about -/

/-- A step that neither makes `loop` wait, nor ends a `Stop`, nor deserts a session. -/
theorem not_wedged_of_frame (h : ¬s.Wedged) (hwaits : t.waits = true → s.waits = true)
    (hstop : t.stopping = false → s.stopping = false)
    (hdeserted : ∀ j, t.Deserted j → s.Deserted j) : ¬t.Wedged := by
  rintro ⟨hw, hs, j, hj⟩
  exact h ⟨hwaits hw, hstop hs, j, hdeserted j hj⟩

theorem Holds.of_accepting (h : .accepting j ∈ s.conns) : ∃ k, s.Holds k j := by
  obtain ⟨k, hk⟩ := List.mem_iff_getElem?.mp h
  exact ⟨k, _, hk, rfl⟩

theorem deserted_of_connMove (hwf : s.Wf) (hp : s.conns[k]? = some p) (hmove : ConnMove s k p t)
    (h : t.Deserted j) : s.Deserted j := by
  obtain ⟨hacc, hopen, hatt⟩ := h
  cases hmove with
  | stays => exact ⟨hacc, hopen, hatt⟩
  | goes q hpn hq =>
    rcases List.mem_or_eq_of_mem_set hacc with hacc | rfl
    · exact ⟨hacc, hopen, hatt⟩
    · exact absurd hq (Option.some_ne_none j)
  | opens =>
    rcases List.mem_or_eq_of_mem_set hacc with hacc | heq
    · obtain ⟨k', hk'⟩ := Holds.of_accepting hacc
      rw [isOpen_openSession (Nat.ne_of_lt (hwf.made k' j hk'))] at hopen
      exact ⟨hacc, hopen, attended_openSession ▸ hatt⟩
    · exact absurd heq nofun
  | starts i hpi =>
    have hi : i < s.table.length := hwf.made k i ⟨p, hp, by rw [hpi]; rfl⟩
    rw [attended_startReconnect hi, Bool.or_eq_false_iff, decide_eq_false_iff_not] at hatt
    rcases List.mem_or_eq_of_mem_set hacc with hacc | heq
    · exact ⟨hacc, isOpen_startReconnect i ▸ hopen, hatt.2⟩
    · exact absurd (ConnPhase.accepting.inj heq).symm hatt.1
  | ends i q hpi hq hclosed =>
    have hopen : (s.close i).isOpen j = true := hopen
    have hatt : (s.close i).attended j = false := hatt
    rw [isOpen_close, Bool.and_eq_true] at hopen
    rcases List.mem_or_eq_of_mem_set hacc with hacc | rfl
    · exact ⟨hacc, hopen.1, attended_close i ▸ hatt⟩
    · exact absurd hq (Option.some_ne_none j)

/-- What the goroutine for a planned reconnect does to its session, and to the others. -/
theorem deserted_set_iff {x y : Session} {i : ℕ} (hx : s.table[i]? = some x) :
    ({ s with table := s.table.set i y } : Client).Deserted j ↔
      .accepting j ∈ s.conns ∧
        if i = j then y.isOpen = true ∧ y.reconnect.isSome = false
        else s.isOpen j = true ∧ s.attended j = false := by
  refine and_congr_right fun _ ↦ ?_
  rw [isOpen, attended, any_set hx, any_set hx]
  split
  · exact Iff.rfl
  · exact Iff.rfl

/-- A goroutine for a planned reconnect that returns. -/
theorem wedged_leave_iff {x : Session} (hn : ¬s.Wedged) (hx : s.table[j]? = some x) :
    ({ s with table := s.table.set j { x with reconnect := none } } : Client).Wedged ↔
      ¬s.Spares (.reconnect j .leave) := by
  have hopen : s.isOpen j = x.isOpen := by rw [isOpen, hx, Option.any_some]
  simp only [Spares, Classical.not_imp, Bool.not_eq_false]
  refine ⟨fun ⟨hw, hs, i, hi⟩ ↦ ?_, fun ⟨hw, hs, hacc, ho⟩ ↦ ⟨hw, hs, j, ?_⟩⟩
  · obtain ⟨hacc, hrest⟩ := (deserted_set_iff hx).mp hi
    split at hrest
    · rename_i hij
      subst hij
      exact ⟨hw, hs, hacc, hopen ▸ hrest.1⟩
    · exact absurd ⟨hw, hs, i, hacc, hrest⟩ hn
  · refine (deserted_set_iff hx).mpr ⟨hacc, ?_⟩
    rw [if_pos rfl]
    exact ⟨hopen ▸ ho, rfl⟩

/-- **One step**: it does not bring the wedge about exactly if it spares the sessions. -/
theorem not_wedged_step_iff (hwf : s.Wf) (hn : ¬s.Wedged) (he : s.step e = some t) :
    ¬t.Wedged ↔ s.Spares e := by
  cases e with
  | loop e =>
    have hspares : s.loop ≠ .serving → s.Spares (.loop e) := by
      intro hne
      cases e with
      | hour | stop => exact fun hp ↦ absurd hp hne
      | _ => trivial
    cases loopMove_of_stepLoop he with
    | goes q hq hp _ =>
      refine iff_of_true (fun hw ↦ ?_) (hspares hp)
      obtain ⟨b, hb⟩ := waits_iff.mp hw.1
      exact hq b hb
    | begins exits hp => exact iff_of_true (fun hw ↦ absurd hw.1 nofun) (hspares (hp ▸ nofun))
    | waits b hp hev =>
      have hiff : ¬({ s with loop := .waiting b, childStop := true } : Client).Wedged ↔
          (s.loop = .serving → s.stopping = false → ∀ j, ¬s.Deserted j) :=
        ⟨fun h _ hs j hj ↦ h ⟨rfl, hs, j, hj⟩, fun h ⟨_, hs, j, hj⟩ ↦ h hp hs j hj⟩
      rcases hev with rfl | rfl
      · exact hiff
      · exact hiff
  | conn k e =>
    obtain ⟨p, hp, hc⟩ := Option.bind_eq_some_iff.mp he
    have hmove := connMove_of_stepConn hc
    refine iff_of_true (not_wedged_of_frame hn ?_ ?_ ?_) trivial
    · rw [waits, waits, hmove.frame.1]
      exact id
    · rw [hmove.frame.2]
      exact id
    · exact fun j hj ↦ deserted_of_connMove hwf hp hmove hj
  | reconnect i e =>
    obtain ⟨x, p, y, hx, -, hy, rfl⟩ := step_reconnect he
    have hspares : e ≠ .leave → s.Spares (.reconnect i e) := by
      intro hne
      cases e with
      | leave => exact absurd rfl hne
      | _ => trivial
    rcases stepReconnect_cases hy with ⟨hne, hkept⟩ | ⟨rfl, rfl⟩
    · refine iff_of_true (not_wedged_of_frame hn id id fun j hj ↦ ?_) (hspares hne)
      obtain ⟨hacc, hrest⟩ := (deserted_set_iff hx).mp hj
      split at hrest
      · exact absurd ((hkept hrest.1).2.symm.trans hrest.2) nofun
      · exact ⟨hacc, hrest⟩
    · exact (not_congr (wedged_leave_iff hn hx)).trans not_not
  | remoteCloses i =>
    rw [step, Option.some_inj] at he
    subst he
    refine iff_of_true (not_wedged_of_frame hn id id fun j ⟨hacc, hopen, hatt⟩ ↦ ?_) trivial
    rw [isOpen_close, Bool.and_eq_true] at hopen
    exact ⟨hacc, hopen.1, attended_close i ▸ hatt⟩
  | stop =>
    rw [step] at he
    split at he
    · rw [Option.some_inj] at he
      subst he
      exact iff_of_true (fun hw ↦ absurd hw.2.1 nofun) trivial
    · exact Option.some_inj.mp he ▸ iff_of_true hn trivial
  | stopSessions =>
    rw [step] at he
    split at he
    · rw [Option.some_inj] at he
      subst he
      refine iff_of_true ?_ trivial
      rintro ⟨-, -, j, hacc, hopen, -⟩
      rw [isOpen_closeSessions, Bool.and_eq_true, decide_eq_true_eq] at hopen
      obtain ⟨k, hk⟩ := Holds.of_accepting hacc
      exact hopen.2 (hwf.listed k j hk hopen.1)
    · exact absurd he (Option.some_ne_none t).symm

/-- **The refresh does not wedge** in a run exactly if no step of it brings the wedge about: no
goroutine for a planned reconnect receives a stop signal and leaves a session open that `loop` waits
for and `Stop` is not going to close, and `loop` does not begin to wait while there is a session
that was left so. -/
theorem never_wedged_iff {es : List Event} {t : Client} (h : exec step started es = some t) :
    (∀ pre post u, es = pre ++ post → exec step started pre = some u → ¬u.Wedged) ↔
      Along step Spares started es := by
  let P : Client → Prop := fun u ↦ u.Wf ∧ ¬u.Wedged
  have hs : P started := ⟨wf_started, fun hw ↦ absurd hw.1 nofun⟩
  have hstates : (∀ pre post u, es = pre ++ post → exec step started pre = some u → ¬u.Wedged) ↔
      ∀ pre post u, es = pre ++ post → exec step started pre = some u → P u :=
    forall₅_congr fun pre post u hsplit hu ↦
      (and_iff_right (inv_of_exec Wf.step wf_started hu)).symm
  have hiff : ∀ {s : Client} {e : Event} {t : Client}, P s → True → s.step e = some t →
      ((∀ u, s.step e = some u → P u) ↔ s.Spares e) := by
    intro s e t hP _ he
    refine ⟨fun hall ↦ (not_wedged_step_iff hP.1 hP.2 he).mp (hall t he).2, fun hsp u hu ↦ ?_⟩
    exact ⟨hP.1.step hu, (not_wedged_step_iff hP.1 hP.2 hu).mpr hsp⟩
  rw [hstates, forall_states_iff_along hs]
  exact along_iff_along hiff (fun _ hc he ↦ hc _ he) hs (fun _ _ ↦ trivial) h

/-- One exit, whose session is closed by a planned reconnect that begins before the hour is over. -/
def demoRun : List Event :=
  [.loop .check, .loop (.fetched (some ["exit:443"])), .conn 0 .check, .conn 0 .dialled,
    .conn 0 .registered, .reconnect 0 .timer, .loop .hour, .reconnect 0 .planned,
    .reconnect 0 .close, .conn 0 .acceptFails, .conn 0 .check, .loop .waited, .loop .check]

/-- This run is never wedged. -/
theorem never_wedged_demo :
    ∃ t, exec step started demoRun = some t ∧ t.loop = .fetching ∧
      ∀ pre post u, demoRun = pre ++ post → exec step started pre = some u → ¬u.Wedged :=
  ⟨_, rfl, rfl, (never_wedged_iff (show exec step started demoRun = some _ from rfl)).mpr
    (by decide)⟩

/-! ## The wedge is for good -/

/-- A session that is deserted remains so, whatever the goroutines `connectToExit` do. -/
theorem Deserted.connMove (h : s.Deserted j) (hwf : s.Wf) (hp : s.conns[k]? = some p)
    (hmove : ConnMove s k p t) : t.Deserted j := by
  obtain ⟨hacc, hopen, hatt⟩ := h
  obtain ⟨k', hk'⟩ := List.mem_iff_getElem?.mp hacc
  -- The step is one of another goroutine, with another session, or has no effect.
  have hset : ∀ q, k ≠ k' → .accepting j ∈ s.conns.set k q := fun q hk ↦
    List.mem_iff_getElem?.mpr ⟨k', by rw [List.getElem?_set, if_neg hk, hk']⟩
  have hother : ∀ i, p.session = some i → k ≠ k' → i ≠ j := by
    rintro i hi hne rfl
    exact hne (hwf.alone k k' i ⟨p, hp, hi⟩ ⟨_, hk', rfl⟩)
  have hsame : k = k' → p = .accepting j := by
    rintro rfl
    exact Option.some_inj.mp (hp.symm.trans hk')
  cases hmove with
  | stays => exact ⟨hacc, hopen, hatt⟩
  | goes q hpn hq =>
    have hk : k ≠ k' := fun hk ↦ absurd hpn (hsame hk ▸ Option.some_ne_none j)
    exact ⟨hset q hk, hopen, hatt⟩
  | opens hpn =>
    have hk : k ≠ k' := fun hk ↦ absurd hpn (hsame hk ▸ Option.some_ne_none j)
    have hj : j ≠ s.table.length := Nat.ne_of_lt (hwf.made k' j ⟨_, hk', rfl⟩)
    exact ⟨hset _ hk, (isOpen_openSession hj).trans hopen, attended_openSession.trans hatt⟩
  | starts i hpi =>
    have hk : k ≠ k' := fun hk ↦ absurd (hpi.symm.trans (hsame hk)) nofun
    have hi : p.session = some i := hpi ▸ rfl
    refine ⟨hset _ hk, (isOpen_startReconnect i).trans hopen, ?_⟩
    rw [attended_startReconnect (hwf.made k i ⟨p, hp, hi⟩), hatt, Bool.or_false]
    exact decide_eq_false (hother i hi hk)
  | ends i q hpi hq hclosed =>
    have hk : k ≠ k' := by
      intro hk
      rw [hsame hk] at hpi
      obtain rfl : j = i := Option.some_inj.mp hpi
      exact absurd (hopen.symm.trans (hclosed (hsame hk))) nofun
    refine ⟨hset q hk, ?_, (attended_close i).trans hatt⟩
    refine (isOpen_close i).trans ?_
    rw [hopen, Bool.true_and]
    exact decide_eq_true (hother i hpi hk)

/-- **One step** from the wedge: only the exit or a call of `Stop` can end it. -/
theorem Wedged.step (h : s.Wedged) (hwf : s.Wf) (hstop : e ≠ .stop)
    (hremote : ∀ i, e ≠ .remoteCloses i) (he : s.step e = some t) : t.Wedged := by
  obtain ⟨hw, hs, j, hj⟩ := h
  obtain ⟨b, hb⟩ := waits_iff.mp hw
  cases e with
  | loop e =>
    cases loopMove_of_stepLoop he with
    | goes q _ _ hall => exact absurd (hall hw _ hj.1) nofun
    | begins exits hp => exact absurd (hp.symm.trans hb) nofun
    | waits b' hp _ => exact absurd (hp.symm.trans hb) nofun
  | conn k e =>
    obtain ⟨p, hp, hc⟩ := Option.bind_eq_some_iff.mp he
    have hmove := connMove_of_stepConn hc
    refine ⟨?_, hmove.frame.2.trans hs, j, hj.connMove hwf hp hmove⟩
    exact waits_iff.mpr ⟨b, hmove.frame.1.trans hb⟩
  | reconnect i e =>
    obtain ⟨x, p, y, hx, hp, -, rfl⟩ := step_reconnect he
    refine ⟨hw, hs, j, (deserted_set_iff hx).mpr ⟨hj.1, ?_⟩⟩
    rw [if_neg]
    · exact hj.2
    · rintro rfl
      have hatt := hj.2.2
      rw [attended, hx, Option.any_some, hp] at hatt
      exact absurd hatt nofun
  | remoteCloses i => exact absurd rfl (hremote i)
  | stop => exact absurd rfl hstop
  | stopSessions =>
    rw [Client.step, if_neg (by rw [hs]; exact Bool.false_ne_true)] at he
    exact absurd he (Option.some_ne_none t).symm

/-- **A run** from the wedge stays there, as long as the exit keeps the sessions open and nobody
calls `Stop`. -/
theorem Wedged.exec {es : List Event} (h : s.Wedged) (hwf : s.Wf)
    (hes : ∀ e ∈ es, e ≠ .stop ∧ ∀ i, e ≠ .remoteCloses i) (ht : exec Client.step s es = some t) :
    t.Wedged := by
  have hstep : ∀ {s : Client} {e : Event} {t : Client}, s.Wf ∧ s.Wedged →
      (e ≠ .stop ∧ ∀ i, e ≠ .remoteCloses i) → s.step e = some t → t.Wf ∧ t.Wedged :=
    fun hP hC he ↦ ⟨hP.1.step he, hP.2.step hP.1 hC.1 hC.2 he⟩
  exact (inv_of_exec_along hstep ⟨hwf, h⟩ (along_of_forall_mem hes s) ht).2

/-- The run of an ordinary hour: one exit, one session, and no `Stop`. -/
def demoHour : List Event :=
  [.loop .check, .loop (.fetched (some ["exit:443"])), .conn 0 .check, .conn 0 .dialled,
    .conn 0 .registered, .loop .hour, .reconnect 0 .leave]

/-- **The hourly refresh wedges**, and nothing in the client ends this. -/
theorem wedged_after_hour :
    ∃ t, exec step started demoHour = some t ∧ t.Wedged ∧
      ∀ es u, (∀ e ∈ es, e ≠ .stop ∧ ∀ i, e ≠ .remoteCloses i) → exec step t es = some u →
        u.Wedged := by
  have hrun : ∃ t, exec step started demoHour = some t ∧ t.Wedged :=
    ⟨_, rfl, rfl, rfl, 0, by decide⟩
  obtain ⟨t, ht, hw⟩ := hrun
  have hwf : t.Wf := inv_of_exec Wf.step wf_started ht
  exact ⟨t, ht, hw, fun es u hes hu ↦ hw.exec hwf hes hu⟩

end Client

end TunnelCat.ParaExit
