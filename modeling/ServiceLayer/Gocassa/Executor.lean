import ServiceLayer.Gocassa.Pool

/-!
# The pool-based `gocqlExecutor`: swapping pools under running callers

`gocassa/executor.go`, the version that keeps a `*gocqlConnectionPool`. After `init()` the
executor has one active pool and the hash of the config it was built from. Every `Query` or
`Execute` call reads `e.pool` under the read lock and then works on the pool it read, with no
lock at all. The watcher goroutine reacts to every config notification. It reloads the
config, and when the hash differs from `lastHash`, `switchConfig` closes the old pool and
installs a new one. The executor write lock is held throughout.

The world here holds every pool ever built (`e.pool` is an index into them, since a caller
can still hold a superseded one), the driver's connections, and the callers. A caller is
`reading` until it loads `e.pool`, and from then on follows the pool protocol of `Pool.lean`
on the pool it read. The config hash is a parameter (`ksConfig.hash()` is not part of the
source here): every result holds for every hash function.

Two results. `config_swap` is the swap state machine. In every reachable state
`lastHash = hash(e.pool.Cfg)`. A notification replaces the pool, and closes the old one,
exactly when the load succeeded with a config of a different hash; otherwise it changes
nothing. `superseded_pool_keeps_connection` is the race the module note of `Close` leaves
open. A caller reads `e.pool`, the watcher swaps and closes that pool, and the caller then
dials through the closed pool and returns. The connection it dialed stays open, tracked only
by a pool nobody will close again.

`switchConfig` holds the executor write lock, and readers take the read lock only to load
`e.pool`, so the watcher's pass is one step here. Callers' pool steps interleave with it
freely: they take no executor lock.
-/

set_option autoImplicit false

namespace ServiceLayer
namespace Gocassa
namespace PoolExecutor

open Go

/-- The pool-based `gocqlExecutor`, with `e.pool` as an index into the pools built so far
    (`nil` is `none`). `initialised` and `initMtx` belong to `init()`'s double-checked lock,
    modelled in `Init.lean`. -/
structure Executor where
  ks : String
  lastHash : UInt32
  pool : Option Nat
  deriving DecidableEq, Repr

/-- Where a `Query`/`Execute` call is: before loading `e.pool`, or working on the pool it
    loaded. -/
inductive Caller where
  | reading
  | using (pool : Nat) (ph : Phase)
  deriving DecidableEq, Repr

/-- The executor, every pool it has built, the driver's connections, and the callers. -/
structure World where
  exec : Executor
  pools : List Pool
  driver : Driver
  calls : List Caller

/-- The executor `gocqlConnector` builds: only `ks` is set. -/
def World.fresh (ks : String) : World := ⟨⟨ks, 0, none⟩, [], Driver.empty, []⟩

/-- `if e.pool != nil { e.pool.Close() }`. -/
def World.closeCurrent (w : World) : World :=
  match w.exec.pool with
  | some i =>
    match w.pools[i]? with
    | some p =>
      { w with pools := w.pools.set i (p.close w.driver).1, driver := (p.close w.driver).2 }
    | none => w
  | none => w

section Model

variable (hash : KsConfig → UInt32)

/-- `e.switchConfig(newConfig)`: close the old pool, build and `init()` the new one, point
    `e.pool` at it and record the new config's hash. -/
def switchConfig (w : World) (newConfig : KsConfig) : World :=
  let w' := w.closeCurrent
  { w' with
    exec := { w'.exec with pool := some w'.pools.length, lastHash := hash newConfig }
    pools := w'.pools ++ [Pool.init newConfig] }

/-- One pass of `watchConfig`'s loop on a notification, given what `getKsConfig` returned
    (`none`: an error, logged). -/
def watchConfig (w : World) : Option KsConfig → World
  | none => w
  | some cfg => if hash cfg ≠ w.exec.lastHash then switchConfig hash w cfg else w

/-- The executor right after a successful `init()`: `switchConfig(cfg)` on the fresh
    executor. -/
def World.afterInit (ks : String) (cfg : KsConfig) : World := switchConfig hash (World.fresh ks) cfg

inductive Act where
  /-- A new `Query`/`Execute` call passes `init()`. -/
  | spawn
  /-- Call `i` loads `e.pool` under the read lock. -/
  | read (i : Nat)
  /-- Call `i` takes its next step on the pool it loaded. -/
  | call (i : Nat) (o : Choice)
  /-- Connection `c` closes on its own. -/
  | drop (c : Nat)
  /-- The watcher handles a notification; `getKsConfig` returned `r`. -/
  | notify (r : Option KsConfig)
  deriving DecidableEq, Repr

def World.step (w : World) : Act → Option World
  | .spawn => some { w with calls := w.calls ++ [.reading] }
  | .read i =>
    match w.calls[i]?, w.exec.pool with
    | some .reading, some pid => some { w with calls := w.calls.set i (.using pid .pick) }
    | _, _ => none
  | .call i o =>
    match w.calls[i]? with
    | some (.using pid ph) =>
      match w.pools[pid]? with
      | some p =>
        (callStep p w.driver ph o).map fun r =>
          { w with pools := w.pools.set pid r.1, driver := r.2.1,
                   calls := w.calls.set i (.using pid r.2.2) }
      | none => none
    | _ => none
  | .drop c => some { w with driver := w.driver.close c }
  | .notify r => some (watchConfig hash w r)

inductive Step : World → World → Prop
  | spawn (w : World) : Step w { w with calls := w.calls ++ [.reading] }
  | read (w : World) {i pid : Nat} (hi : w.calls[i]? = some .reading)
      (hp : w.exec.pool = some pid) : Step w { w with calls := w.calls.set i (.using pid .pick) }
  | call (w : World) {i pid : Nat} {ph ph' : Phase} {p p' : Pool} {d' : Driver}
      (hi : w.calls[i]? = some (.using pid ph)) (hp : w.pools[pid]? = some p)
      (hm : CallMove p w.driver ph p' d' ph') :
      Step w { w with pools := w.pools.set pid p', driver := d',
                      calls := w.calls.set i (.using pid ph') }
  | drop (w : World) (c : Nat) : Step w { w with driver := w.driver.close c }
  | notify (w : World) (r : Option KsConfig) : Step w (watchConfig hash w r)

theorem World.step_sound {w w' : World} {a : Act} (h : w.step hash a = some w') :
    Step hash w w' := by
  cases a with
  | spawn => cases h; exact .spawn w
  | read i =>
    simp only [World.step] at h
    split at h
    · cases h; exact .read w ‹_› ‹_›
    · cases h
  | call i o =>
    simp only [World.step] at h
    split at h
    · split at h
      · obtain ⟨⟨p', d', ph'⟩, hs, he⟩ := Option.map_eq_some'.mp h
        cases he; exact .call w ‹_› ‹_› (callStep_move hs)
      · cases h
    · cases h
  | drop c => cases h; exact .drop w c
  | notify r => cases h; exact .notify w r

/-- Every state reachable after a successful `init()` with config `cfg₀`, under any
    interleaving of callers, dropped connections and config notifications. -/
inductive Reachable (ks : String) (cfg₀ : KsConfig) : World → Prop
  | init : Reachable ks cfg₀ (World.afterInit hash ks cfg₀)
  | step {w w' : World} : Reachable ks cfg₀ w → Step hash w w' → Reachable ks cfg₀ w'

def World.run : World → List Act → Option World
  | w, [] => some w
  | w, a :: as => (w.step hash a).bind fun w' => World.run w' as

theorem World.run_reachable {ks : String} {cfg₀ : KsConfig} :
    ∀ {w w' : World} {as : List Act}, Reachable hash ks cfg₀ w →
      w.run hash as = some w' → Reachable hash ks cfg₀ w'
  | _, _, [], hw, h => by cases h; exact hw
  | _, _, a :: as, hw, h => by
    simp only [World.run] at h
    obtain ⟨w₁, h₁, h₂⟩ := Option.bind_eq_some.mp h
    exact World.run_reachable (hw.step (World.step_sound hash h₁)) h₂

end Model

/-! ## 1. `switchConfig` -/

section Swap

variable (hash : KsConfig → UInt32)

/-- The current pool: the one `e.pool` points at. -/
def World.current (w : World) : Option Pool := w.exec.pool.bind fun i => w.pools[i]?

/-- What `switchConfig` does when `e.pool` points at pool `i`: pool `i` is closed (its
    tracking list emptied and every connection on it closed), the new pool is appended and
    installed, and `lastHash` is the new config's hash. -/
theorem switchConfig_spec {w : World} {i : Nat} {p : Pool} (hi : w.exec.pool = some i)
    (hp : w.pools[i]? = some p) (cfg : KsConfig) :
    let w' := switchConfig hash w cfg
    w'.exec.pool = some w.pools.length ∧ w'.exec.lastHash = hash cfg ∧
      w'.current = some (Pool.init cfg) ∧
      w'.pools[i]? = some { p with activeConns := [] } ∧
      (∀ c ∈ p.activeConns, w'.driver.closed c = true) ∧ w'.calls = w.calls := by
  have hlt : i < w.pools.length := (List.getElem?_eq_some_iff.mp hp).1
  obtain ⟨-, -, hcl⟩ := Driver.foldl_close p.activeConns w.driver
  have hset : (w.pools.set i { p with activeConns := [] } ++ [Pool.init cfg])[i]? =
      some { p with activeConns := [] } := by
    rw [List.getElem?_append_left (by simpa using hlt), List.getElem?_set_self hlt]
  simp [switchConfig, World.closeCurrent, World.current, hi, hp, Pool.close, hcl, hset]
  exact fun c hc => .inr hc

end Swap

/-! ## 2. The swap state machine -/

section Machine

variable (hash : KsConfig → UInt32)

/-- `lastHash` is the hash of the active pool's config. -/
def HashOk (w : World) : Prop :=
  ∃ i p, w.exec.pool = some i ∧ w.pools[i]? = some p ∧ w.exec.lastHash = hash p.cfg

theorem hashOk_afterInit (ks : String) (cfg : KsConfig) :
    HashOk hash (World.afterInit hash ks cfg) :=
  ⟨0, Pool.init cfg, rfl, rfl, rfl⟩

theorem HashOk.switchConfig {w : World} (hw : HashOk hash w) (cfg : KsConfig) :
    HashOk hash (switchConfig hash w cfg) := by
  obtain ⟨i, p, hi, hp, -⟩ := hw
  obtain ⟨hpool, hhash, hcur, -⟩ := switchConfig_spec hash hi hp cfg
  simp only [World.current, hpool, Option.bind_some] at hcur
  exact ⟨_, _, hpool, hcur, hhash⟩

theorem HashOk.step {w w' : World} (hw : HashOk hash w) (hst : Step hash w w') :
    HashOk hash w' := by
  cases hst with
  | spawn | read | drop => exact hw
  | @call i pid ph ph' p p' d' hi hp hm =>
    obtain ⟨j, q, hj, hq, hh⟩ := hw
    by_cases e : pid = j
    · subst e
      refine ⟨pid, p', hj, List.getElem?_set_self (List.getElem?_eq_some_iff.mp hp).1, ?_⟩
      rw [hh, hm.cfg_eq, Option.some.inj (hp.symm.trans hq)]
    · exact ⟨j, q, hj, by rw [List.getElem?_set_ne e]; exact hq, hh⟩
  | notify r =>
    cases r with
    | none => exact hw
    | some cfg =>
      simp only [watchConfig]
      split_ifs
      · exact hw.switchConfig hash cfg
      · exact hw

theorem Reachable.hashOk {ks : String} {cfg₀ : KsConfig} {w : World}
    (h : Reachable hash ks cfg₀ w) : HashOk hash w := by
  induction h with
  | init => exact hashOk_afterInit hash ks cfg₀
  | step _ hst ih => exact ih.step hash hst

/-- **The config-swap state machine.** In every state reachable after a successful
    `init()`, under any interleaving of callers and notifications, `lastHash` is the hash
    of the active pool's config. A notification whose load returned `r` replaces `e.pool`
    exactly when `r` is a config of a different hash. The old pool is then closed: its
    tracking list is emptied, every connection on it is closed, and the new pool is the
    config's fresh pool with its hash recorded. A load error, or an equal hash, changes
    nothing. -/
theorem config_swap {ks : String} {cfg₀ : KsConfig} {w : World} (hw : Reachable hash ks cfg₀ w) :
    (∃ i p, w.exec.pool = some i ∧ w.pools[i]? = some p ∧ w.exec.lastHash = hash p.cfg) ∧
    ∀ r : Option KsConfig,
      ((watchConfig hash w r).exec.pool ≠ w.exec.pool ↔
        ∃ cfg, r = some cfg ∧ hash cfg ≠ w.exec.lastHash) ∧
      (∀ cfg, r = some cfg → hash cfg ≠ w.exec.lastHash →
        ∃ i p, w.exec.pool = some i ∧ w.pools[i]? = some p ∧
          (watchConfig hash w r).pools[i]? = some { p with activeConns := [] } ∧
          (∀ c ∈ p.activeConns, (watchConfig hash w r).driver.closed c = true) ∧
          (watchConfig hash w r).current = some (Pool.init cfg) ∧
          (watchConfig hash w r).exec.lastHash = hash cfg) ∧
      ((∀ cfg, r = some cfg → hash cfg = w.exec.lastHash) → watchConfig hash w r = w) := by
  obtain ⟨i, p, hi, hp, hh⟩ := hw.hashOk
  have hlt : i < w.pools.length := (List.getElem?_eq_some_iff.mp hp).1
  refine ⟨⟨i, p, hi, hp, hh⟩, fun r => ⟨?_, fun cfg hr hne => ?_, fun hsame => ?_⟩⟩
  · cases r with
    | none => simp [watchConfig]
    | some cfg =>
      by_cases hne : hash cfg = w.exec.lastHash
      · simp [watchConfig, hne]
      · obtain ⟨hpool, -⟩ := switchConfig_spec hash hi hp cfg
        simp only [watchConfig, if_pos hne, hpool, hi, ne_eq, Option.some.injEq]
        exact ⟨fun _ => ⟨cfg, rfl, hne⟩, fun _ => by omega⟩
  · subst hr
    obtain ⟨-, hhash, hcur, hold, hcl, -⟩ := switchConfig_spec hash hi hp cfg
    simp only [watchConfig, if_pos hne]
    exact ⟨i, p, hi, hp, hold, hcl, hcur, hhash⟩
  · cases r with
    | none => rfl
    | some cfg => simp [watchConfig, hsame cfg rfl]

/-- The first notification after `init()` on the reuse test's config, under a hash that
    counts hosts, loading a config that adds a host: the pool is replaced. -/
theorem config_swap_after_init :
    Reachable KsConfig.hostsHash "dummyks" Sys.reuseCfg
      (World.afterInit KsConfig.hostsHash "dummyks" Sys.reuseCfg) ∧
    (watchConfig KsConfig.hostsHash
      (World.afterInit KsConfig.hostsHash "dummyks" Sys.reuseCfg)
      (some ⟨"dummyks", ["host1", "host2"], 2⟩)).exec.pool ≠
    (World.afterInit KsConfig.hostsHash "dummyks" Sys.reuseCfg).exec.pool :=
  ⟨.init, ((config_swap KsConfig.hostsHash .init).2 _).1.mpr
    ⟨_, rfl, by decide⟩⟩

end Machine

/-! ## 3. A connection dialed through a superseded pool -/

section Stranded

/-- What a drained executor looks like: a pool that is no longer `e.pool`, all of whose
    callers have returned, has no open connection on its tracking list. -/
def Drained (w : World) : Prop :=
  ∀ i : Nat, w.exec.pool ≠ some i →
    (∀ (j : Nat) (ph : Phase), w.calls[j]? = some (.using i ph) → ph = .done) →
    ∀ p, w.pools[i]? = some p → ∀ c ∈ p.activeConns, w.driver.closed c = true

/-- One host, one slot. -/
def strandCfg₀ : KsConfig := ⟨"dummyks", ["host1"], 1⟩

/-- The config the watcher loads: a second host added. -/
def strandCfg₁ : KsConfig := ⟨"dummyks", ["host1", "host2"], 1⟩

/-- What the caller does on the pool it loaded, after the swap closed it: pick `host1`, find
    no established connection, take the nil token, dial, check the connection in. -/
def strandRun : List Act :=
  [.call 0 (.host "host1"), .call 0 .next, .call 0 .unestablished, .call 0 .next,
   .call 0 (.dial true), .call 0 .next]

/-- **A superseded pool keeps a live connection.** For every config hash that tells the two
    configs apart: a caller loads `e.pool`, the watcher swaps configs and closes that pool,
    and the caller then dials through it and checks the connection in. The caller has
    returned, the pool is no longer `e.pool`, and the connection it dialed is open. -/
theorem superseded_pool_keeps_connection (hash : KsConfig → UInt32)
    (hne : hash strandCfg₁ ≠ hash strandCfg₀) :
    ¬ ∀ w, Reachable hash "dummyks" strandCfg₀ w → Drained w := by
  intro h
  have hread : (World.afterInit hash "dummyks" strandCfg₀).run hash [.spawn, .read 0] =
      some { World.afterInit hash "dummyks" strandCfg₀ with calls := [.using 0 .pick] } := rfl
  have hswap : watchConfig hash { World.afterInit hash "dummyks" strandCfg₀ with
      calls := [.using 0 .pick] } (some strandCfg₁) = switchConfig hash
      { World.afterInit hash "dummyks" strandCfg₀ with calls := [.using 0 .pick] } strandCfg₁ :=
    if_pos hne
  have hr₁ := (World.run_reachable hash .init hread).step (.notify _ (some strandCfg₁))
  rw [hswap] at hr₁
  have hv : ((switchConfig hash { World.afterInit hash "dummyks" strandCfg₀ with
      calls := [.using 0 .pick] } strandCfg₁).run hash strandRun).map (fun w =>
        (w.exec.pool, w.calls, w.pools[0]?.map (fun p : Pool => p.activeConns),
          w.driver.closed 0)) =
      some (some 1, [.using 0 .done], some [0], false) := by rfl
  obtain ⟨w, hrun, hw⟩ := Option.map_eq_some'.mp hv
  simp only [Prod.mk.injEq] at hw
  obtain ⟨hpool, hcalls, hconns, hopen⟩ := hw
  obtain ⟨p, hp, hpc⟩ := Option.map_eq_some'.mp hconns
  have hdone : ∀ (j : Nat) (ph : Phase), w.calls[j]? = some (Caller.using 0 ph) → ph = .done := by
    intro j ph hj
    rw [hcalls] at hj
    match j, hj with
    | 0, hj => simpa using hj.symm
  have := h w (World.run_reachable hash hr₁ hrun) 0 (by rw [hpool]; decide) hdone p hp 0
    (by rw [hpc]; exact List.mem_singleton_self 0)
  rw [hopen] at this
  exact Bool.false_ne_true this

/-- The race under a hash that counts hosts. -/
theorem superseded_pool_keeps_connection_counted :
    KsConfig.hostsHash strandCfg₁ ≠ KsConfig.hostsHash strandCfg₀ ∧
      ¬ ∀ w, Reachable KsConfig.hostsHash "dummyks" strandCfg₀ w → Drained w :=
  ⟨by decide, superseded_pool_keeps_connection _ (by decide)⟩

end Stranded

end PoolExecutor
end Gocassa
end ServiceLayer
