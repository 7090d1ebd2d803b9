import ServiceLayer.Gocassa.Pool

/-!
# The session-based `gocqlExecutor`: a failed switch, and the watcher that retries it

`gocassa/executor.go`, the version that keeps one `*gocql.Session`. Here `switchConfig` can
fail, because `CreateSession` can, and two things follow from how the code handles that.

**What a failed switch leaves behind** (`switchConfig_error`). `switchConfig` closes the
current session *before* it tries to create the new one, and stores the new config in
`e.cfg` before that too. When `CreateSession` fails, it returns early. `e.session` still
points at the old session, now closed. `e.cfg` is the new config and `e.lastHash` is the old
one's hash, so the two no longer agree. Queries that follow read a non-nil `e.session` and
run on the closed session.

**The retry that never arrives** (`watcher_deadlocks`). `watchConfig` makes an unbuffered
`retryCh`, selects on it and on the config channel, and passes it to `reloadSession`. After
a failed switch `reloadSession` sleeps and sends on `retryCh`. A send on an unbuffered
channel completes only when another goroutine is receiving on it at that moment. The only
goroutine that ever receives on `retryCh` is the watcher, and it is the one sending. So the
send never completes: the watcher stays blocked and never receives another notification.

The goroutine is modelled by its program point (`WatchPc`), with one step per channel
operation or call. The rendezvous on `retryCh` is a joint step of a goroutine blocked in
the send and one waiting in the select. Both conditions are read off the only goroutine
that holds the channel.
-/

set_option autoImplicit false

namespace ServiceLayer
namespace Gocassa
namespace SessionExecutor

/-! ## 1. The executor and its sessions -/

/-- The `*gocql.Session`s created so far, by identity, and which are closed. -/
structure Sessions where
  next : Nat
  closed : Nat → Bool

namespace Sessions

/-- `session.Close()`. -/
def close (ss : Sessions) (s : Nat) : Sessions :=
  { ss with closed := Function.update ss.closed s true }

/-- A successful `CreateSession`: a fresh, open session. -/
def create (ss : Sessions) : Sessions :=
  ⟨ss.next + 1, Function.update ss.closed ss.next false⟩

end Sessions

/-- The session-based `gocqlExecutor`, without `initialised` and `initMtx` (`Init.lean`).
    `session` is `nil` (`none`) until a switch succeeds. -/
structure Executor where
  ks : String
  lastHash : UInt32
  cfg : KsConfig
  session : Option Nat

/-- The executor and the sessions it has created. -/
structure World where
  exec : Executor
  sessions : Sessions

/-- The executor `gocqlConnector` builds: only `ks` set, `cfg` the zero `ksConfig`. -/
def World.fresh (ks : String) : World := ⟨⟨ks, 0, ⟨"", [], 0⟩, none⟩, ⟨0, fun _ => false⟩⟩

section Model

variable (hash : KsConfig → UInt32)

/-- `e.switchConfig(newConfig)`, with `ok` whether `e.cfg.cc.CreateSession()` succeeds.
    Returns the world and whether the call returned `nil`. -/
def switchConfig (w : World) (newConfig : KsConfig) (ok : Bool) : World × Bool :=
  let sessions := match w.exec.session with
    | some s => w.sessions.close s
    | none => w.sessions
  let exec := { w.exec with cfg := newConfig }
  if ok then
    (⟨{ exec with session := some sessions.next, lastHash := hash newConfig }, sessions.create⟩,
      true)
  else (⟨exec, sessions⟩, false)

/-- **A failed switch.** Whatever state the executor was in: `e.session` and `e.lastHash`
    are as they were, `e.cfg` is the new config, and the session `e.session` points at has
    been closed. -/
theorem switchConfig_error (w : World) (newConfig : KsConfig) :
    let r := switchConfig hash w newConfig false
    r.2 = false ∧ r.1.exec.session = w.exec.session ∧ r.1.exec.lastHash = w.exec.lastHash ∧
      r.1.exec.cfg = newConfig ∧ ∀ s, w.exec.session = some s → r.1.sessions.closed s = true := by
  refine ⟨rfl, rfl, rfl, rfl, fun s hs => ?_⟩
  simp [switchConfig, hs, Sessions.close]

theorem switchConfig_ok (w : World) (newConfig : KsConfig) :
    let r := switchConfig hash w newConfig true
    r.2 = true ∧ r.1.exec.cfg = newConfig ∧ r.1.exec.lastHash = hash newConfig ∧
      ∃ s, r.1.exec.session = some s ∧ r.1.sessions.closed s = false := by
  refine ⟨rfl, rfl, rfl, ?_⟩
  cases hs : w.exec.session <;> simp [switchConfig, hs, Sessions.create, Sessions.close]

/-- Every session created and still open is the one `e.session` points at. -/
def NoLeak (w : World) : Prop :=
  ∀ s < w.sessions.next, w.sessions.closed s = false → w.exec.session = some s

theorem noLeak_fresh (ks : String) : NoLeak (World.fresh ks) :=
  fun _ hs => absurd hs (Nat.not_lt_zero _)

/-- After a switch, whatever its outcome, a session created before it is closed exactly
    when it was closed already or was `e.session`. -/
theorem switchConfig_closed_old (w : World) (newConfig : KsConfig) (ok : Bool) {s : Nat}
    (hs : s < w.sessions.next) :
    (switchConfig hash w newConfig ok).1.sessions.closed s =
      (w.sessions.closed s || decide (w.exec.session = some s)) := by
  cases hc : w.exec.session <;> cases ok <;>
    simp [switchConfig, hc, Sessions.create, Sessions.close, Function.update_apply,
      Nat.ne_of_lt hs, eq_comm, Bool.or_comm]

theorem NoLeak.switchConfig_closed {w : World} (hw : NoLeak w) (newConfig : KsConfig)
    (ok : Bool) {s : Nat} (hs : s < w.sessions.next) :
    (switchConfig hash w newConfig ok).1.sessions.closed s = true := by
  rw [switchConfig_closed_old hash w newConfig ok hs]
  cases hcl : w.sessions.closed s
  · simp [hw s hs hcl]
  · rfl

theorem switchConfig_next (w : World) (newConfig : KsConfig) (ok : Bool) :
    (switchConfig hash w newConfig ok).1.sessions.next =
      w.sessions.next + if ok then 1 else 0 := by
  cases ok <;> cases hc : w.exec.session <;>
    simp [switchConfig, hc, Sessions.close, Sessions.create]

/-- `switchConfig` closes the old session before it creates the new one, so it never leaves
    a session open behind it. -/
theorem NoLeak.switchConfig {w : World} (hw : NoLeak w) (newConfig : KsConfig) (ok : Bool) :
    NoLeak (switchConfig hash w newConfig ok).1 := by
  intro s hs hopen
  by_cases hlt : s < w.sessions.next
  · rw [hw.switchConfig_closed hash newConfig ok hlt] at hopen; cases hopen
  · rw [switchConfig_next] at hs
    cases ok
    · simp only [Bool.false_eq_true, if_false, Nat.add_zero] at hs; omega
    · obtain rfl : s = w.sessions.next := by simp only [if_true] at hs; omega
      cases hc : w.exec.session <;> simp [SessionExecutor.switchConfig, hc, Sessions.close]

/-- An executor with an open session on `c₀`, whose hash it records. -/
def sessionOn (c₀ : KsConfig) : World := ⟨⟨"dummyks", hash c₀, c₀, some 0⟩, ⟨1, fun _ => false⟩⟩

/-- A failed switch: the session was open and `e.cfg` was `c₀`; after
    `CreateSession` fails on `c₁`, the session is closed, `e.session` still points at it,
    and `e.cfg` is `c₁` while `e.lastHash` is still the hash of `c₀`. -/
theorem failed_switch_closes_session (c₀ c₁ : KsConfig) :
    (sessionOn hash c₀).sessions.closed 0 = false ∧
      let r := switchConfig hash (sessionOn hash c₀) c₁ false
      r.2 = false ∧ r.1.sessions.closed 0 = true ∧ r.1.exec.session = some 0 ∧
        r.1.exec.cfg = c₁ ∧ r.1.exec.lastHash = hash c₀ :=
  ⟨rfl, (switchConfig_error hash _ c₁).1, (switchConfig_error hash _ c₁).2.2.2.2 0 rfl,
    (switchConfig_error hash _ c₁).2.1, (switchConfig_error hash _ c₁).2.2.2.1,
    (switchConfig_error hash _ c₁).2.2.1⟩

end Model

/-! ## 2. The watcher goroutine -/

/-- Where the `watchConfig` goroutine is. -/
inductive WatchPc where
  /-- In the `select` on `configCh` and `retryCh`. -/
  | select
  /-- In `reloadSession`, about to read `ks` and `lastHash` under the read lock. -/
  | reload
  /-- About to call `getKsConfig(ks)`, with the `lastHash` it read. -/
  | load (lastHash : UInt32)
  /-- The hash differed; about to call `switchConfig(cfg)`. -/
  | switch (cfg : KsConfig)
  /-- The switch failed; sleeping, then blocked on `retryCh <- struct{}{}`. -/
  | retry
  deriving DecidableEq, Repr

/-- The executor, the watcher, the notifications queued on `configCh`, and (ghost) how many
    the watcher has taken. -/
structure Watch where
  world : World
  pc : WatchPc
  pending : Nat
  handled : Nat

inductive WatchAct where
  /-- The config service publishes a change. -/
  | notify
  /-- The select takes the `configCh` case. -/
  | recvConfig
  /-- The select takes the `retryCh` case, with the sender blocked in `retryCh <-`. -/
  | recvRetry
  /-- `reloadSession` reads `ks` and `lastHash`. -/
  | read
  /-- `getKsConfig` returns `r` (`none`: an error, logged). -/
  | load (r : Option KsConfig)
  /-- `switchConfig`; `ok` is whether `CreateSession` succeeds. -/
  | create (ok : Bool)
  /-- The send `retryCh <- struct{}{}` completes, with the receiver waiting in the select. -/
  | sendRetry
  deriving DecidableEq, Repr

/-- Some goroutine is blocked in `retryCh <- struct{}{}`. Only `reloadSession` sends on
    `retryCh`, and only the watcher calls it. -/
def retrySenderBlocked (s : Watch) : Bool := s.pc == .retry

/-- Some goroutine is waiting in a `select` that receives on `retryCh`. Only the watcher
    holds `retryCh`. -/
def retryReceiverWaiting (s : Watch) : Bool := s.pc == .select

section Watcher

variable (hash : KsConfig → UInt32)

/-- One step of `e.reloadSession(retryCh)`; `none` when it blocks or does not apply. -/
def Watch.reloadSessionStep (s : Watch) : WatchAct → Option Watch
  | .read => if s.pc = .reload then some { s with pc := .load s.world.exec.lastHash } else none
  | .load r =>
    match s.pc, r with
    | .load _, none => some { s with pc := .select }
    | .load h, some cfg => some { s with pc := if hash cfg ≠ h then .switch cfg else .select }
    | _, _ => none
  | .create ok =>
    match s.pc with
    | .switch cfg =>
      let r := switchConfig hash s.world cfg ok
      some { s with world := r.1, pc := if r.2 then .select else .retry }
    | _ => none
  | .sendRetry =>
    if s.pc = .retry ∧ retryReceiverWaiting s then some { s with pc := .select } else none
  | _ => none

/-- One step: a notification, `watchConfig`'s select, or a step of `reloadSession`. -/
def Watch.step (s : Watch) : WatchAct → Option Watch
  | .notify => some { s with pending := s.pending + 1 }
  | .recvConfig =>
    if s.pc = .select ∧ 0 < s.pending then
      some { s with pc := .reload, pending := s.pending - 1, handled := s.handled + 1 }
    else none
  | .recvRetry =>
    if s.pc = .select ∧ retrySenderBlocked s then some { s with pc := .reload } else none
  | a => s.reloadSessionStep hash a

def Watch.run : Watch → List WatchAct → Option Watch
  | s, [] => some s
  | s, a :: as => (s.step hash a).bind fun s' => Watch.run s' as

/-- From the blocked send, no step moves the watcher: the only steps enabled are new
    notifications, which it never takes. -/
theorem Watch.step_retry {s s' : Watch} {a : WatchAct} (hs : s.pc = .retry)
    (h : s.step hash a = some s') : s'.pc = .retry ∧ s'.handled = s.handled ∧ a = .notify := by
  cases a with
  | notify => cases h; exact ⟨hs, rfl, rfl⟩
  | _ => simp [Watch.step, Watch.reloadSessionStep, hs, retrySenderBlocked,
    retryReceiverWaiting] at h

theorem Watch.run_retry {s s' : Watch} {as : List WatchAct} (hs : s.pc = .retry)
    (h : s.run hash as = some s') : s'.pc = .retry ∧ s'.handled = s.handled := by
  induction as generalizing s with
  | nil => cases h; exact ⟨hs, rfl⟩
  | cons a as ih =>
    obtain ⟨s₁, h₁, h₂⟩ := Option.bind_eq_some.mp h
    obtain ⟨hpc, hh, -⟩ := Watch.step_retry hash hs h₁
    exact (ih hpc h₂).imp_right (·.trans hh)

/-- **The watcher blocks forever after a failed switch.** From the select, with a
    notification queued, if `getKsConfig` returns a config whose hash differs from
    `lastHash` and `CreateSession` fails, the watcher reaches the send on `retryCh`. From
    there, whatever happens (any further notifications, any outcomes), it stays blocked in
    that send and takes no further notification. -/
theorem watcher_deadlocks (s : Watch) (hsel : s.pc = .select) (hpend : 0 < s.pending)
    (cfg : KsConfig) (hne : hash cfg ≠ s.world.exec.lastHash) :
    ∃ s', s.run hash [.recvConfig, .read, .load (some cfg), .create false] = some s' ∧
      s'.pc = .retry ∧
      ∀ as s'', s'.run hash as = some s'' → s''.pc = .retry ∧ s''.handled = s'.handled := by
  have hsw := (switchConfig_error hash s.world cfg).1
  refine ⟨{ s with
      world := (switchConfig hash s.world cfg false).1
      pc := WatchPc.retry
      pending := s.pending - 1
      handled := s.handled + 1 }, ?_, rfl,
    fun as s'' h => Watch.run_retry hash rfl h⟩
  simp [Watch.run, Watch.step, Watch.reloadSessionStep, hsel, hpend, hne, hsw]

/-- The watcher over the executor of `failed_switch_closes_session`, in its select, with one
    notification queued. -/
def queuedWatch : Watch := ⟨sessionOn KsConfig.hostsHash Sys.reuseCfg, .select, 1, 0⟩

/-- A config on one more host than the executor's. -/
def twoHostCfg : KsConfig := ⟨"dummyks", ["host1", "host2"], 2⟩

theorem watcher_deadlocks_counted :
    queuedWatch.pc = .select ∧ 0 < queuedWatch.pending ∧
      KsConfig.hostsHash twoHostCfg ≠ queuedWatch.world.exec.lastHash ∧
      ∃ s', queuedWatch.run KsConfig.hostsHash
          [.recvConfig, .read, .load (some twoHostCfg), .create false] = some s' ∧
        s'.pc = .retry ∧
        ∀ as s'', s'.run KsConfig.hostsHash as = some s'' →
          s''.pc = .retry ∧ s''.handled = s'.handled :=
  ⟨rfl, by decide, by decide, watcher_deadlocks _ queuedWatch rfl (by decide) _ (by decide)⟩

end Watcher

end SessionExecutor
end Gocassa
end ServiceLayer
