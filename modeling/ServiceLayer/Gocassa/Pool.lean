import ServiceLayer.Go.Basic

/-!
# `gocqlConnectionPool`, and the pool under any number of callers

`gocassa/pool.go` (the `gocqlConnectionPool` half of the repository's gocassa package).
The pool keeps, per host of its config, two channels of capacity `NumConns`: the
*established* queue of live connections and the *unestablished* queue of `nil` tokens, one
per slot not yet backed by a connection. `checkout` asks the host pool for a host, prefers an
established connection, waits up to five seconds on either queue, dials when it got a token
(or a connection it finds closed), and puts the token back when the dial fails. `checkin`
returns a non-nil connection to the established queue of the host it was checked out for.

## What is modelled, and how

* The pool's fields (`Pool`) as the code has them, with `hp` left out. `init()` builds it
  over `Cfg.hosts`, so the host it answers is a *choice* of the caller's step among them,
  and every choice it could make is covered. `Mark` feeds nothing the pool reads.
* The connections as the driver sees them (`Driver`): identities handed out fresh by each
  successful `gocql.Connect`, the host each was dialed to, and whether it is closed.
* One caller's walk through `checkout` and `checkin` (`Phase`), one atomic step per channel
  operation or driver call: `checkoutStep` for `checkout()`, then `Pool.checkin`, joined in
  `callStep`. `Query` and `Execute` differ only in what they do with the session, which the
  pool never sees: both check out, and on every path (the `NewSession` error path included)
  check in once.
* The pool under many callers (`Sys`): a list of callers, any one of which may move, new
  callers arriving at any time, connections closing on their own, and `Close`.

`callStep` is the executable model; `CallMove` reads it as a relation with one named
constructor per transition, and every invariant of the later files is proved by cases on
`CallMove` rather than by unfolding `callStep` again.
-/

set_option autoImplicit false

namespace ServiceLayer
namespace Gocassa

open Go

abbrev Host := String

/-- `ksConfig`, with the fields the pool and the executor read: the keyspace, the host list,
    and the `NumConns` of its `gocql.ClusterConfig`. -/
structure KsConfig where
  ks : String
  hosts : List Host
  numConns : Nat
  deriving DecidableEq, Repr

/-- A stand-in for `ksConfig.hash()` on concrete runs: it tells configs with different host
    counts apart. Every result is stated for every hash function. -/
def KsConfig.hostsHash (c : KsConfig) : UInt32 := c.hosts.length.toUInt32

/-! ## 1. The driver's connections -/

/-- The connections as `gocql` holds them. A `*gocql.Conn` is compared by pointer, so a
    connection here is a number: `next` is the one the next successful `Connect` hands out;
    `host` is where each was dialed, and `closed` is `conn.Closed()`. -/
structure Driver where
  next : Nat
  host : Nat → Host
  closed : Nat → Bool

namespace Driver

def empty : Driver := ⟨0, fun _ => "", fun _ => false⟩

/-- A successful `gocql.Connect(host, ...)`: a fresh, open connection to `host`. -/
def dial (d : Driver) (host : Host) : Driver where
  next := d.next + 1
  host := Function.update d.host d.next host
  closed := Function.update d.closed d.next false

/-- `c.Close()`. Also what a connection the network drops looks like to the pool. -/
def close (d : Driver) (c : Nat) : Driver := { d with closed := Function.update d.closed c true }

@[simp] theorem dial_next (d : Driver) (h : Host) : (d.dial h).next = d.next + 1 := rfl

theorem dial_host (d : Driver) (h : Host) (c : Nat) :
    (d.dial h).host c = if c = d.next then h else d.host c := Function.update_apply _ _ _ _

theorem dial_closed (d : Driver) (h : Host) (c : Nat) :
    (d.dial h).closed c = if c = d.next then false else d.closed c := Function.update_apply _ _ _ _

@[simp] theorem close_next (d : Driver) (c : Nat) : (d.close c).next = d.next := rfl

@[simp] theorem close_host (d : Driver) (c : Nat) : (d.close c).host = d.host := rfl

theorem close_closed (d : Driver) (c c' : Nat) :
    (d.close c).closed c' = (d.closed c' || decide (c' = c)) := by
  by_cases e : c' = c <;> simp [close, Function.update_apply, e]

theorem foldl_close (cs : List Nat) (d : Driver) :
    (cs.foldl close d).next = d.next ∧ (cs.foldl close d).host = d.host ∧
      ∀ c, (cs.foldl close d).closed c = (d.closed c || c ∈ cs) := by
  induction cs generalizing d with
  | nil => simp
  | cons c cs ih =>
    obtain ⟨hn, hh, hc⟩ := ih (d.close c)
    refine ⟨hn, hh, fun c' => ?_⟩
    rw [List.foldl_cons, hc, close_closed]
    by_cases e : c' = c <;> simp [e]

end Driver

/-! ## 2. The pool -/

/-- `gocqlConnectionPool`, without its host pool `hp` (see the module note). -/
structure Pool where
  cfg : KsConfig
  activeConns : List Nat
  /-- `hostConnsEstablished`. -/
  established : Host → Option (Chan (Option Nat))
  /-- `hostConnsUnestablished`. -/
  unestablished : Host → Option (Chan (Option Nat))

namespace Pool

/-- `p.init()` on a pool whose `Cfg` is `cfg`: an empty tracking list, and for each host an
    empty established queue and an unestablished queue filled with `NumConns` nil tokens. A
    host listed twice gets the channels of its last occurrence, as the map assignment does. -/
def init (cfg : KsConfig) : Pool where
  cfg := cfg
  activeConns := []
  established :=
    cfg.hosts.foldl (fun m host => Function.update m host (some (Chan.make cfg.numConns)))
      fun _ => none
  unestablished :=
    cfg.hosts.foldl (fun m host => Function.update m host (some (Chan.full cfg.numConns none)))
      fun _ => none

/-- `p.connect(host)`: on success the new connection is appended to `activeConns`; on
    failure the error is logged and `nil` returned. -/
def connect (p : Pool) (d : Driver) (host : Host) (ok : Bool) : Option Nat × Pool × Driver :=
  if ok then (some d.next, { p with activeConns := p.activeConns ++ [d.next] }, d.dial host)
  else (none, p, d)

/-- `p.Size()`. -/
def size (p : Pool) : Nat := p.activeConns.length

/-- `p.Close()`: close every tracked connection and reset the tracking list. The host
    channels are left as they are. -/
def close (p : Pool) (d : Driver) : Pool × Driver :=
  ({ p with activeConns := [] }, p.activeConns.foldl Driver.close d)

@[simp] theorem init_cfg (cfg : KsConfig) : (init cfg).cfg = cfg := rfl

@[simp] theorem init_activeConns (cfg : KsConfig) : (init cfg).activeConns = [] := rfl

theorem init_established (cfg : KsConfig) (h : Host) :
    (init cfg).established h = if h ∈ cfg.hosts then some (Chan.make cfg.numConns) else none := by
  simp [init, foldl_update_apply]

theorem init_unestablished (cfg : KsConfig) (h : Host) :
    (init cfg).unestablished h =
      if h ∈ cfg.hosts then some (Chan.full cfg.numConns none) else none := by
  simp [init, foldl_update_apply]

end Pool

/-! ## 3. One caller -/

/-- Where a `Query`/`Execute` call is in the pool's protocol. -/
inductive Phase where
  /-- About to call `p.hp.Get()`. -/
  | pick
  /-- Picked `h`; about to try the non-blocking receive on its established queue. -/
  | poll (h : Host)
  /-- Blocked in the inner select: established queue, unestablished queue, or the timer. -/
  | wait (h : Host)
  /-- Took `c` off one of `h`'s queues; about to test `conn == nil || conn.Closed()`. -/
  | got (h : Host) (c : Option Nat)
  /-- About to call `p.connect(h)`. -/
  | dial (h : Host)
  /-- The dial failed; about to send the nil token back on the unestablished queue. -/
  | putBack (h : Host)
  /-- `checkout` returned `{conn: c, hpResp: h}`; the session runs, then `checkin`. -/
  | out (h : Host) (c : Option Nat)
  /-- `checkin` has returned. -/
  | done
  deriving DecidableEq, Repr

/-- What the world decides at a caller's step. -/
inductive Choice where
  /-- The host `p.hp.Get()` answers. -/
  | host (h : Host)
  /-- The inner select takes its established case. -/
  | established
  /-- The inner select takes its unestablished case. -/
  | unestablished
  /-- The inner select's five-second timer fires first. -/
  | timer
  /-- Whether `gocql.Connect` succeeds. -/
  | dial (ok : Bool)
  /-- A step with nothing left to choose. -/
  | next
  deriving DecidableEq, Repr

/-- One atomic step of `p.checkout()`; `none` when the step blocks or the choice does not
    fit. `p.hp` is built over `p.Cfg.hosts`, so `hp.Get()` answers one of them. -/
def checkoutStep (p : Pool) (d : Driver) : Phase → Choice → Option (Pool × Driver × Phase)
  | .pick, .host h => if h ∈ p.cfg.hosts then some (p, d, .poll h) else none
  | .poll h, .next =>
    match recvAt? p.established h with
    | some (c, est) => some ({ p with established := est }, d, .got h c)
    | none => some (p, d, .wait h)
  | .wait h, .established =>
    (recvAt? p.established h).map fun r => ({ p with established := r.2 }, d, .got h r.1)
  | .wait h, .unestablished =>
    (recvAt? p.unestablished h).map fun r => ({ p with unestablished := r.2 }, d, .got h r.1)
  | .wait h, .timer => some (p, d, .out h none)
  | .got h (some c), .next => some (p, d, if d.closed c then .dial h else .out h (some c))
  | .got h none, .next => some (p, d, .dial h)
  | .dial h, .dial ok =>
    match p.connect d h ok with
    | (some c, p', d') => some (p', d', .out h (some c))
    | (none, p', d') => some (p', d', .putBack h)
  | .putBack h, .next =>
    (sendAt? p.unestablished h none).map fun un => ({ p with unestablished := un }, d, .out h none)
  | _, _ => none

/-- `p.checkin(conn, err)` for a handle of host `h`: a non-nil connection goes back on `h`'s
    established queue; `none` while that send blocks. `Mark(err)` feeds only `hp`. -/
def Pool.checkin (p : Pool) (h : Host) : Option Nat → Option Pool
  | some c => (sendAt? p.established h (some c)).map fun est => { p with established := est }
  | none => some p

/-- One step of a `Query`/`Execute` call: `checkout()`'s steps, then `checkin()`. -/
def callStep (p : Pool) (d : Driver) : Phase → Choice → Option (Pool × Driver × Phase)
  | .out h c, .next => (p.checkin h c).map fun p' => (p', d, .done)
  | ph, o => checkoutStep p d ph o

/-- `callStep` as a relation: every transition a caller can make, with what it needs. -/
inductive CallMove (p : Pool) (d : Driver) : Phase → Pool → Driver → Phase → Prop
  | pick (h : Host) (hh : h ∈ p.cfg.hosts) : CallMove p d .pick p d (.poll h)
  /-- The non-blocking receive, or the inner select's established case, takes `c`. -/
  | takeEstablished {ph : Phase} (h : Host) (c : Option Nat)
      (est : Host → Option (Chan (Option Nat)))
      (hph : ph = .poll h ∨ ph = .wait h) (hr : recvAt? p.established h = some (c, est)) :
      CallMove p d ph { p with established := est } d (.got h c)
  | takeUnestablished (h : Host) (c : Option Nat) (un : Host → Option (Chan (Option Nat)))
      (hr : recvAt? p.unestablished h = some (c, un)) :
      CallMove p d (.wait h) { p with unestablished := un } d (.got h c)
  | miss (h : Host) (hr : recvAt? p.established h = none) : CallMove p d (.poll h) p d (.wait h)
  | timeout (h : Host) : CallMove p d (.wait h) p d (.out h none)
  | redialNil (h : Host) : CallMove p d (.got h none) p d (.dial h)
  | redialClosed (h : Host) (c : Nat) (hc : d.closed c = true) :
      CallMove p d (.got h (some c)) p d (.dial h)
  | reuse (h : Host) (c : Nat) (hc : d.closed c = false) :
      CallMove p d (.got h (some c)) p d (.out h (some c))
  | connected (h : Host) :
      CallMove p d (.dial h) { p with activeConns := p.activeConns ++ [d.next] } (d.dial h)
        (.out h (some d.next))
  | failed (h : Host) : CallMove p d (.dial h) p d (.putBack h)
  | putBack (h : Host) (un : Host → Option (Chan (Option Nat)))
      (hs : sendAt? p.unestablished h none = some un) :
      CallMove p d (.putBack h) { p with unestablished := un } d (.out h none)
  | checkin (h : Host) (c : Nat) (est : Host → Option (Chan (Option Nat)))
      (hs : sendAt? p.established h (some c) = some est) :
      CallMove p d (.out h (some c)) { p with established := est } d .done
  | checkinNil (h : Host) : CallMove p d (.out h none) p d .done

theorem callStep_move {p p' : Pool} {d d' : Driver} {ph ph' : Phase} {o : Choice}
    (h : callStep p d ph o = some (p', d', ph')) : CallMove p d ph p' d' ph' := by
  cases ph <;> cases o <;> simp only [callStep, checkoutStep, Pool.checkin, reduceCtorEq] at h
  case pick.host h₀ =>
    split_ifs at h with hh
    cases h; exact .pick _ hh
  case poll.next h₀ =>
    split at h
    · cases h; exact .takeEstablished _ _ _ (.inl rfl) ‹_›
    · cases h; exact .miss _ ‹_›
  case wait.established h₀ =>
    obtain ⟨⟨c, est⟩, hr, he⟩ := Option.map_eq_some'.mp h
    cases he; exact .takeEstablished _ _ _ (.inr rfl) hr
  case wait.unestablished h₀ =>
    obtain ⟨⟨c, un⟩, hr, he⟩ := Option.map_eq_some'.mp h
    cases he; exact .takeUnestablished _ _ _ hr
  case wait.timer => cases h; exact .timeout _
  case got.next h₀ c =>
    cases c with
    | none => cases h; exact .redialNil _
    | some c =>
      simp only [Option.some.injEq, Prod.mk.injEq] at h
      obtain ⟨rfl, rfl, rfl⟩ := h
      cases hc : d.closed c
      · exact .reuse _ _ hc
      · exact .redialClosed _ _ hc
  case dial.dial h₀ ok =>
    cases ok <;> simp only [Pool.connect, Bool.false_eq_true, if_false, if_true] at h <;> cases h
    · exact .failed _
    · exact .connected _
  case putBack.next h₀ =>
    obtain ⟨un, hs, he⟩ := Option.map_eq_some'.mp h
    cases he; exact .putBack _ _ hs
  case out.next h₀ c =>
    obtain ⟨p₁, hc, he⟩ := Option.map_eq_some'.mp h
    cases he
    cases c with
    | none => cases hc; exact .checkinNil _
    | some c =>
      obtain ⟨est, hs, rfl⟩ := Option.map_eq_some'.mp hc
      exact .checkin _ _ _ hs

theorem CallMove.cfg_eq {p p' : Pool} {d d' : Driver} {ph ph' : Phase}
    (h : CallMove p d ph p' d' ph') : p'.cfg = p.cfg := by
  cases h <;> rfl

/-! ## 4. The pool under many callers -/

/-- One pool, the driver, and every `Query`/`Execute` call that has used it, in arrival
    order. -/
structure Sys where
  pool : Pool
  driver : Driver
  calls : List Phase

inductive Act where
  /-- A new `Query`/`Execute` call reaches `pool.checkout()`. -/
  | spawn
  /-- Call `i` takes its next step. -/
  | call (i : Nat) (o : Choice)
  /-- Connection `c` closes on its own (the server or the network drops it). -/
  | drop (c : Nat)
  /-- `p.Close()`. -/
  | close
  deriving DecidableEq, Repr

namespace Sys

def init (cfg : KsConfig) : Sys := ⟨Pool.init cfg, Driver.empty, []⟩

def step (s : Sys) : Act → Option Sys
  | .spawn => some { s with calls := s.calls ++ [.pick] }
  | .call i o =>
    match s.calls[i]? with
    | some ph => (callStep s.pool s.driver ph o).map fun r => ⟨r.1, r.2.1, s.calls.set i r.2.2⟩
    | none => none
  | .drop c => some { s with driver := s.driver.close c }
  | .close => some ⟨(s.pool.close s.driver).1, (s.pool.close s.driver).2, s.calls⟩

inductive Step : Sys → Sys → Prop
  | spawn (s : Sys) : Step s { s with calls := s.calls ++ [.pick] }
  | call (s : Sys) {i : Nat} {ph : Phase} {p : Pool} {d : Driver} {ph' : Phase}
      (hi : s.calls[i]? = some ph) (hm : CallMove s.pool s.driver ph p d ph') :
      Step s ⟨p, d, s.calls.set i ph'⟩
  | drop (s : Sys) (c : Nat) : Step s { s with driver := s.driver.close c }
  | close (s : Sys) : Step s ⟨(s.pool.close s.driver).1, (s.pool.close s.driver).2, s.calls⟩

theorem step_sound {s s' : Sys} {a : Act} (h : s.step a = some s') : Step s s' := by
  cases a with
  | spawn => cases h; exact .spawn s
  | call i o =>
    simp only [step] at h
    split at h
    · obtain ⟨⟨p, d, ph'⟩, hs, he⟩ := Option.map_eq_some'.mp h
      cases he; exact .call s ‹_› (callStep_move hs)
    · cases h
  | drop c => cases h; exact .drop s c
  | close => cases h; exact .close s

/-- Every state the pool reaches from `init()` under some interleaving of its callers,
    of connections dropping, and of `Close`. -/
inductive Reachable (cfg : KsConfig) : Sys → Prop
  | init : Reachable cfg (init cfg)
  | step {s s' : Sys} : Reachable cfg s → Step s s' → Reachable cfg s'

def run : Sys → List Act → Option Sys
  | s, [] => some s
  | s, a :: as => (s.step a).bind fun s' => run s' as

theorem run_append (s : Sys) (as bs : List Act) :
    s.run (as ++ bs) = (s.run as).bind fun s' => s'.run bs := by
  induction as generalizing s with
  | nil => rfl
  | cons a as ih =>
    rw [List.cons_append, run, run, Option.bind_assoc]
    exact congrArg _ (funext ih)

theorem Reachable.cfg_eq {cfg : KsConfig} {s : Sys} (h : Reachable cfg s) : s.pool.cfg = cfg := by
  induction h with
  | init => rfl
  | step _ hst ih =>
    cases hst with
    | call _ hm => exact hm.cfg_eq.trans ih
    | _ => exact ih

theorem run_reachable {cfg : KsConfig} :
    ∀ {s s' : Sys} {as : List Act}, Reachable cfg s → run s as = some s' → Reachable cfg s'
  | _, _, [], hs, h => by cases h; exact hs
  | s, _, a :: as, hs, h => by
    simp only [run] at h
    obtain ⟨s₁, h₁, h₂⟩ := Option.bind_eq_some.mp h
    exact run_reachable (hs.step (step_sound h₁)) h₂

/-! ## 5. The repository's reuse test, as a run

`TestConnectionReuse` builds a pool on one host with two connections per host, checks a
connection out, checks it in, and checks out again. The test injects its connection by hand;
here the first checkout dials it. The run stops with the second caller holding the reused
connection. -/

/-- The config of `poolSuite`: host `host1`, `NumConns = 2`. -/
def reuseCfg : KsConfig := ⟨"dummyks", ["host1"], 2⟩

/-- checkout (dialing), checkin, checkout (reusing). -/
def reuseRun : List Act :=
  [.spawn, .call 0 (.host "host1"), .call 0 .next, .call 0 .unestablished, .call 0 .next,
   .call 0 (.dial true), .call 0 .next,
   .spawn, .call 1 (.host "host1"), .call 1 .next, .call 1 .next]

def reuseState : Sys := ((init reuseCfg).run reuseRun).getD (init reuseCfg)

theorem reuseState_reachable : Reachable reuseCfg reuseState :=
  run_reachable .init (rfl : (init reuseCfg).run reuseRun = some reuseState)

/-- The second checkout hands out the connection the first one dialed. -/
example : reuseState.calls = [.done, .out "host1" (some 0)] := by decide

end Sys

end Gocassa
end ServiceLayer
