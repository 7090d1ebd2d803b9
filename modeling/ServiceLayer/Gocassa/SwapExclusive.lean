import Mathlib.Algebra.BigOperators.Group.List
import Mathlib.Algebra.Order.Ring.Nat
import ServiceLayer.Gocassa.Executor
import ServiceLayer.Gocassa.Exclusive

/-!
# Exclusive use across pool swaps

`Exclusive.lean` shows that one pool hands each connection to one caller at a time. The
pool-based executor keeps building pools: after a swap, callers that loaded the old pool still
take connections off its queues and check them back in, while new callers use the new pool.
Every pool dials through the one `gocql` driver, so the question is whether a connection
can turn up in two pools, or in the hands of callers of two pools.

It cannot. The count of `Exclusive.lean`, taken over every pool the executor has built
and every caller whatever pool it works on (`World.occ`), stays at most one for the host
the connection was dialed to, and zero for any other (`ExclusiveEverywhere`). A caller's
move changes only its own pool and itself, by `CallMove.occ_cases`. `Close()` leaves the
host channels as they are and closes connections without moving them. A new pool's queues
hold only nil tokens. So:

* **No connection is shared across swaps** (`exclusive_every_pool`). Two outstanding
  `Query`/`Execute` calls never hold the same connection, whichever pools they loaded. A
  held connection is queued established on no pool. A queued connection is queued once, on
  one host of one pool. Every held connection was dialed to the host it is held for.
-/

set_option autoImplicit false

namespace ServiceLayer
namespace Gocassa

open Go

/-! ## 1. Counting over every pool -/

/-- Replacing the entry `a` at `i` by `b` changes a sum by what `a` and `b` contribute. -/
theorem sum_map_set_add {β : Type} (f : β → Nat) {l : List β} {i : Nat} {a b : β}
    (h : l[i]? = some a) : ((l.set i b).map f).sum + f a = (l.map f).sum + f b := by
  induction l generalizing i with
  | nil => simp at h
  | cons x xs ih =>
    cases i with
    | zero =>
      obtain rfl : x = a := by simpa using h
      simp only [List.set_cons_zero, List.map_cons, List.sum_cons]; omega
    | succ i =>
      have := ih (by simpa using h)
      simp only [List.set_cons_succ, List.map_cons, List.sum_cons]; omega

/-- Two different entries of a list of naturals add up to at most its sum. -/
theorem add_le_sum_of_ne {l : List Nat} {i j x y : Nat} (hij : i ≠ j) (hi : l[i]? = some x)
    (hj : l[j]? = some y) : x + y ≤ l.sum := by
  have h₁ := sum_map_set_add id (b := 0) hi
  have h₂ := sum_map_set_add id (l := l.set i 0) (b := 0)
    (by rw [List.getElem?_set_ne hij]; exact hj)
  simp only [List.map_id, id_eq] at h₁ h₂
  omega

/-- A new pool queues no connection. -/
theorem Pool.queued_init (cfg : KsConfig) (h : Host) (c : Nat) :
    (Pool.init cfg).queued h c = 0 := by
  by_cases hh : h ∈ cfg.hosts <;>
    simp [Pool.queued, countAt, Pool.init_established, Pool.init_unestablished, hh, Chan.make,
      Chan.full, List.count_replicate]

/-- `Close()` queues what the pool queued, and dials nothing. -/
theorem Pool.close_queued (p : Pool) (d : Driver) (h : Host) (c : Nat) :
    (p.close d).1.queued h c = p.queued h c := rfl

theorem Pool.close_owns (p : Pool) (d : Driver) (h : Host) (c : Nat) :
    (p.close d).2.owns h c = d.owns h c := by
  simp only [Pool.close, Driver.owns, (Driver.foldl_close _ _).1, (Driver.foldl_close _ _).2.1]

/-- A caller's move keeps the bound on a count that moves as the mover's pool and phase
    contribute: `before` the move, `after` it. -/
theorem CallMove.owns_le {p p' : Pool} {d d' : Driver} {ph ph' : Phase}
    (hm : CallMove p d ph p' d' ph') {before after : Host → Nat → Nat}
    (hb : ∀ h c, before h c ≤ d.owns h c)
    (he : ∀ h c, after h c + (p.queued h c + (if ph.conn h = some c then 1 else 0)) =
      before h c + (p'.queued h c + (if ph'.conn h = some c then 1 else 0))) (h : Host)
    (c : Nat) : after h c ≤ d'.owns h c := by
  have h₁ := he h c
  have h₂ := hb h c
  rcases hm.occ_cases with ⟨rfl, hle⟩ | ⟨h₀, rfl, heq⟩
  · have := hle h c; omega
  · have := heq h c; rw [Driver.owns_dial]; omega

namespace PoolExecutor

/-- The caller has `c` in hand for `h`, on whichever pool it works. -/
def Caller.holding (h : Host) (c : Nat) : Caller → Bool
  | .using _ ph => decide (ph.conn h = some c)
  | .reading => false

/-- Copies of `c` on `h`'s queues of every pool, plus the callers holding it for `h`. -/
def World.occ (w : World) (h : Host) (c : Nat) : Nat :=
  (w.pools.map fun p => p.queued h c).sum + w.calls.countP (Caller.holding h c)

/-- Every connection is found at most once over all pools and callers, and only where the
    driver dialed it. -/
def ExclusiveEverywhere (w : World) : Prop := ∀ h c, w.occ h c ≤ w.driver.owns h c

/-! ## 2. The invariant -/

variable (hash : KsConfig → UInt32)

theorem ExclusiveEverywhere.switchConfig {w : World} (hw : ExclusiveEverywhere w)
    (cfg : KsConfig) : ExclusiveEverywhere (PoolExecutor.switchConfig hash w cfg) := by
  have hclose : ExclusiveEverywhere w.closeCurrent := by
    unfold World.closeCurrent
    split
    · split
      next _ p hp =>
        intro h c
        have hs := sum_map_set_add (fun p => p.queued h c) (b := (p.close w.driver).1) hp
        have hb := hw h c
        simp only [World.occ, Pool.close_queued, Pool.close_owns] at hs hb ⊢
        omega
      · exact hw
    · exact hw
  intro h c
  simpa [World.occ, PoolExecutor.switchConfig, Pool.queued_init, List.sum_append] using hclose h c

theorem exclusiveEverywhere_afterInit (ks : String) (cfg : KsConfig) :
    ExclusiveEverywhere (World.afterInit hash ks cfg) :=
  ExclusiveEverywhere.switchConfig hash (fun h c => by simp [World.occ, World.fresh]) cfg

theorem ExclusiveEverywhere.step {w w' : World} (hw : ExclusiveEverywhere w)
    (hst : Step hash w w') : ExclusiveEverywhere w' := by
  cases hst with
  | spawn => intro h c; simpa [World.occ, Caller.holding] using hw h c
  | @read i pid hi _ =>
    intro h c
    have := countP_set_add (Caller.holding h c) (b := .using pid .pick) hi
    simp only [Caller.holding, Phase.conn, reduceCtorEq, decide_False, Bool.false_eq_true,
      ↓reduceIte, Nat.add_zero] at this
    simpa only [World.occ, this] using hw h c
  | @call i pid ph ph' p p' d' hi hp hm =>
    intro h c
    refine hm.owns_le hw (fun h c => ?_) h c
    have hs := sum_map_set_add (fun p => p.queued h c) (b := p') hp
    have hc := countP_set_add (Caller.holding h c) (b := .using pid ph') hi
    beta_reduce at hs
    simp only [Caller.holding, decide_eq_true_eq] at hc
    simp only [World.occ]
    omega
  | drop c₀ => intro h c; simpa [World.occ, Driver.owns] using hw h c
  | notify r =>
    cases r with
    | none => exact hw
    | some cfg =>
      simp only [watchConfig]
      split_ifs
      · exact hw.switchConfig hash cfg
      · exact hw

theorem Reachable.exclusiveEverywhere {ks : String} {cfg₀ : KsConfig} {w : World}
    (h : Reachable hash ks cfg₀ w) : ExclusiveEverywhere w := by
  induction h with
  | init => exact exclusiveEverywhere_afterInit hash ks cfg₀
  | step _ hst ih => exact ih.step hash hst

/-! ## 3. Exclusive use across swaps -/

/-- Anything counted was dialed to that host. -/
theorem ExclusiveEverywhere.owned {w : World} (hw : ExclusiveEverywhere w) {h : Host} {c : Nat}
    (hpos : 0 < w.occ h c) : w.driver.host c = h ∧ c < w.driver.next := by
  have := hw h c
  unfold Driver.owns at this
  split_ifs at this with e
  · exact ⟨e.2, e.1⟩
  · omega

theorem ExclusiveEverywhere.occ_le_one {w : World} (hw : ExclusiveEverywhere w) (h : Host)
    (c : Nat) : w.occ h c ≤ 1 :=
  (hw h c).trans (by unfold Driver.owns; split <;> omega)

theorem World.held_pos {w : World} {i pid : Nat} {h : Host} {c : Nat}
    (hi : w.calls[i]? = some (.using pid (.out h (some c)))) :
    0 < w.calls.countP (Caller.holding h c) :=
  List.countP_pos_iff.mpr ⟨_, List.getElem?_mem hi, by simp [Caller.holding, Phase.conn]⟩

/-- The `established` copies of `c` on one pool count towards the pools' total. -/
theorem World.queued_le_sum {w : World} {q : Nat} {p : Pool} (hp : w.pools[q]? = some p)
    (h : Host) (c : Nat) :
    countAt p.established h (some c) ≤ (w.pools.map fun p => p.queued h c).sum := by
  have := sum_map_set_add (fun p => p.queued h c) (b := Pool.init p.cfg) hp
  simp only [Pool.queued_init] at this
  unfold Pool.queued at this ⊢
  omega

theorem World.occ_pos_of_held {w : World} {i pid : Nat} {h : Host} {c : Nat}
    (hi : w.calls[i]? = some (.using pid (.out h (some c)))) : 0 < w.occ h c := by
  have := World.held_pos hi; unfold World.occ; omega

theorem World.occ_pos_of_queued {w : World} {q : Nat} {p : Pool} (hp : w.pools[q]? = some p)
    {h : Host} {c : Nat} (hpos : 0 < countAt p.established h (some c)) : 0 < w.occ h c := by
  have := World.queued_le_sum hp h c; unfold World.occ; omega

/-- A connection counted for two hosts was dialed to both, so they are one host. -/
theorem ExclusiveEverywhere.host_eq {w : World} (hw : ExclusiveEverywhere w) {h h' : Host}
    {c : Nat} (h₁ : 0 < w.occ h c) (h₂ : 0 < w.occ h' c) : h = h' :=
  (hw.owned h₁).1.symm.trans (hw.owned h₂).1

/-- **Exclusive use across pool swaps.** In every state the pool-based executor reaches
    after `init()`, under any interleaving of `Query`/`Execute` calls, connections closing
    and config swaps: no two outstanding calls hold the same connection, whichever pools
    they loaded; a held connection is queued established on no pool, current or superseded;
    a queued connection is queued on one host of one pool, once; and every held connection
    was dialed to the host it is held for. -/
theorem exclusive_every_pool {ks : String} {cfg₀ : KsConfig} {w : World}
    (hw : Reachable hash ks cfg₀ w) :
    (∀ (i j pid pid' : Nat) (h h' : Host) (c : Nat), i ≠ j →
      w.calls[i]? = some (.using pid (.out h (some c))) →
      w.calls[j]? = some (.using pid' (.out h' (some c))) → False) ∧
    (∀ (i pid q : Nat) (p : Pool) (h h' : Host) (c : Nat),
      w.calls[i]? = some (.using pid (.out h (some c))) → w.pools[q]? = some p →
      countAt p.established h' (some c) = 0) ∧
    (∀ (q q' : Nat) (p p' : Pool) (h h' : Host) (c : Nat), w.pools[q]? = some p →
      w.pools[q']? = some p' → 0 < countAt p.established h (some c) →
      0 < countAt p'.established h' (some c) →
      q = q' ∧ h = h' ∧ countAt p.established h (some c) = 1) ∧
    (∀ (i pid : Nat) (h : Host) (c : Nat), w.calls[i]? = some (.using pid (.out h (some c))) →
      w.driver.host c = h ∧ c < w.driver.next) := by
  have hok := Reachable.exclusiveEverywhere hash hw
  refine ⟨fun i j pid pid' h h' c hij hi hj => ?_, fun i pid q p h h' c hi hp => ?_,
    fun q q' p p' h h' c hp hp' hq hq' => ?_,
    fun i pid h c hi => hok.owned (World.occ_pos_of_held hi)⟩
  · obtain rfl := hok.host_eq (World.occ_pos_of_held hi) (World.occ_pos_of_held hj)
    have := two_le_countP (Caller.holding h c) hij hi hj
      (by simp [Caller.holding, Phase.conn]) (by simp [Caller.holding, Phase.conn])
    have := hok.occ_le_one h c
    unfold World.occ at this; omega
  · by_contra hne
    obtain rfl := hok.host_eq (World.occ_pos_of_held hi)
      (World.occ_pos_of_queued hp (Nat.pos_of_ne_zero hne))
    have := World.held_pos hi
    have := World.queued_le_sum hp h c
    have := hok.occ_le_one h c
    unfold World.occ at this; omega
  · obtain rfl := hok.host_eq (World.occ_pos_of_queued hp hq) (World.occ_pos_of_queued hp' hq')
    have hle := hok.occ_le_one h c
    have hq₁ := World.queued_le_sum hp h c
    unfold World.occ at hle
    refine ⟨by_contra fun hne => ?_, rfl, by omega⟩
    have := add_le_sum_of_ne hne (l := w.pools.map fun p => p.queued h c) (x := p.queued h c)
      (y := p'.queued h c) (by simp [hp]) (by simp [hp'])
    unfold Pool.queued at *
    omega

/-! ## 4. Two callers, two pools -/

/-- Caller 0 dials connection 0 through the first pool and holds it; the watcher swaps
    configs; caller 1 loads the new pool and dials connection 1 through it. -/
def twoPoolsRun : List Act :=
  [.spawn, .read 0, .call 0 (.host "host1"), .call 0 .next, .call 0 .unestablished,
   .call 0 .next, .call 0 (.dial true), .notify (some strandCfg₁), .spawn, .read 1,
   .call 1 (.host "host1"), .call 1 .next, .call 1 .unestablished, .call 1 .next,
   .call 1 (.dial true)]

/-- The executor after `twoPoolsRun`. -/
def twoPools : World :=
  ((World.afterInit KsConfig.hostsHash "dummyks" strandCfg₀).run KsConfig.hostsHash
    twoPoolsRun).getD (World.afterInit KsConfig.hostsHash "dummyks" strandCfg₀)

example : twoPools.exec.pool = some 1 ∧
    twoPools.calls = [.using 0 (.out "host1" (some 0)), .using 1 (.out "host1" (some 1))] := by
  decide

theorem twoPools_reachable : Reachable KsConfig.hostsHash "dummyks" strandCfg₀ twoPools :=
  World.run_reachable KsConfig.hostsHash .init
    (rfl : (World.afterInit KsConfig.hostsHash "dummyks" strandCfg₀).run KsConfig.hostsHash
      twoPoolsRun = some twoPools)

/-- Connection 0, held by the caller of the superseded pool, is queued on no host of the
    current pool. -/
theorem exclusive_every_pool_twoPools :
    Reachable KsConfig.hostsHash "dummyks" strandCfg₀ twoPools ∧
      twoPools.calls[0]? = some (.using 0 (.out "host1" (some 0))) ∧
      (twoPools.pools[1]?).isSome ∧
      ∀ p, twoPools.pools[1]? = some p → ∀ h, countAt p.established h (some 0) = 0 :=
  have hi : twoPools.calls[0]? = some (.using 0 (.out "host1" (some 0))) := by decide
  ⟨twoPools_reachable, hi, by decide, fun p hp h =>
    (exclusive_every_pool _ twoPools_reachable).2.1 0 0 1 p "host1" h 0 hi hp⟩

end PoolExecutor

end Gocassa
end ServiceLayer
