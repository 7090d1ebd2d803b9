import ServiceLayer.Gocassa.SwapExclusive
import ServiceLayer.Gocassa.Tracking

/-!
# Tracking across pool swaps

`Tracking.lean` shows that one pool's `activeConns` holds every open connection the pool
dialed. In the pool-based executor, `switchConfig` closes the current pool. `Close()`
closes the connections on its list and empties the list, and a caller that loaded the pool
before the swap can still dial through it afterwards. That is the race of
`superseded_pool_keeps_connection`. Is such a connection then tracked by nobody?

It is tracked, by the pool it was dialed through and by no other. Count, for a connection
`c`, its entries on the `activeConns` of every pool the executor has built
(`World.tracked`). That count is at most one, and zero for a connection not yet dialed. It
is exactly one for every open connection (`TrackingEverywhere`). A successful dial appends
the fresh connection to its pool's list. `Close()` takes off its list only the connections
it closes. A new pool starts with an empty list. So:

* **Every open connection is tracked by exactly one pool** (`connections_tracked_every_pool`),
  current or superseded. No list holds a connection twice or one that was never dialed. So
  the open connection a late caller leaves behind sits on the list of the superseded pool
  it used. Closing that pool again, once its callers have returned, would close it.
-/

set_option autoImplicit false

namespace ServiceLayer
namespace Gocassa
namespace PoolExecutor

open Go

/-- The entries for `c` on the `activeConns` of every pool the executor has built. -/
def World.tracked (w : World) (c : Nat) : Nat := (w.pools.map fun p => p.activeConns.count c).sum

/-- Each connection is tracked at most once and only once dialed, and every open one is
    tracked. -/
structure TrackingEverywhere (w : World) : Prop where
  dialed : ∀ c, w.tracked c ≤ if c < w.driver.next then 1 else 0
  covers : ∀ c < w.driver.next, w.driver.closed c = false → w.tracked c = 1

/-! ## 1. The invariant -/

variable (hash : KsConfig → UInt32)

/-- Replacing pool `q`'s list changes the count by what the two lists hold. -/
theorem World.tracked_set {w w₁ : World} {q : Nat} {a b : Pool} (hq : w.pools[q]? = some a)
    (hpools : w₁.pools = w.pools.set q b) (c : Nat) :
    w₁.tracked c + a.activeConns.count c = w.tracked c + b.activeConns.count c := by
  unfold World.tracked
  rw [hpools]
  exact sum_map_set_add (fun p => p.activeConns.count c) hq

/-- The entries of one pool's list count towards the total. -/
theorem World.count_le_tracked {w : World} {q : Nat} {p : Pool} (hp : w.pools[q]? = some p)
    (c : Nat) : p.activeConns.count c ≤ w.tracked c := by
  have := sum_map_set_add (fun p => p.activeConns.count c) (b := Pool.init p.cfg) hp
  simp only [Pool.init_activeConns, List.count_nil] at this
  unfold World.tracked
  omega

/-- `Close()` of pool `q` empties its list and closes what was on it. -/
theorem TrackingEverywhere.close {w w₁ : World} (hw : TrackingEverywhere w) {q : Nat}
    {p : Pool} (hp : w.pools[q]? = some p)
    (hpools : w₁.pools = w.pools.set q (p.close w.driver).1)
    (hd : w₁.driver = (p.close w.driver).2) : TrackingEverywhere w₁ := by
  obtain ⟨hn, -, hcl⟩ := Driver.foldl_close p.activeConns w.driver
  have ht (c : Nat) := World.tracked_set hp hpools c
  simp only [Pool.close, List.count_nil, Nat.add_zero] at ht hd
  refine ⟨fun c => ?_, fun c hc hopen => ?_⟩
  · have h₁ := ht c
    have h₂ := hw.dialed c
    rw [hd, hn]
    split_ifs at h₂ ⊢ <;> omega
  · rw [hd, hn] at hc
    rw [hd, hcl, Bool.or_eq_false_iff, decide_eq_false_iff_not] at hopen
    have h₁ := ht c
    rw [List.count_eq_zero_of_not_mem hopen.2, hw.covers c hc hopen.1] at h₁
    omega

/-- A caller's move on pool `q`: a successful dial appends the fresh connection to the list;
    any other move leaves the list and the driver as they are. -/
theorem TrackingEverywhere.move {w w₁ : World} (hw : TrackingEverywhere w) {q : Nat}
    {p p' : Pool} {d' : Driver} {ph ph' : Phase} (hp : w.pools[q]? = some p)
    (hm : CallMove p w.driver ph p' d' ph') (hpools : w₁.pools = w.pools.set q p')
    (hd : w₁.driver = d') : TrackingEverywhere w₁ := by
  have ht (c : Nat) := World.tracked_set hp hpools c
  subst hd
  rcases hm.tracking_cases with ⟨ha, hd⟩ | ⟨h₀, ha, hd⟩
  · simp only [ha, Nat.add_right_cancel_iff] at ht
    exact ⟨fun c => by rw [ht, hd]; exact hw.dialed c,
      fun c hc hopen => by rw [hd] at hc hopen; rw [ht]; exact hw.covers c hc hopen⟩
  · have ht' (c : Nat) : w₁.tracked c = w.tracked c + if c = w.driver.next then 1 else 0 := by
      have h₁ := ht c
      rw [ha, List.count_append, List.count_singleton] at h₁
      by_cases e : c = w.driver.next
      · rw [if_pos (beq_iff_eq.mpr e.symm)] at h₁; rw [if_pos e]; omega
      · rw [if_neg fun h => e (beq_iff_eq.mp h).symm] at h₁; rw [if_neg e]; omega
    refine ⟨fun c => ?_, fun c hc hopen => ?_⟩
    · have := hw.dialed c
      rw [ht', hd, Driver.dial_next]
      split_ifs at this ⊢ <;> omega
    · rw [hd, Driver.dial_next] at hc
      rw [hd, Driver.dial_closed] at hopen
      rw [ht']
      by_cases e : c = w.driver.next
      · have := hw.dialed c
        rw [if_neg (by omega)] at this
        rw [if_pos e]; omega
      · rw [if_neg e] at hopen ⊢
        rw [hw.covers c (by omega) hopen]

theorem TrackingEverywhere.switchConfig {w : World} (hw : TrackingEverywhere w)
    (cfg : KsConfig) : TrackingEverywhere (PoolExecutor.switchConfig hash w cfg) := by
  have hclose : TrackingEverywhere w.closeCurrent := by
    unfold World.closeCurrent
    split
    · split
      next _ p hp => exact hw.close hp rfl rfl
      · exact hw
    · exact hw
  have hsum (c : Nat) :
      (PoolExecutor.switchConfig hash w cfg).tracked c = w.closeCurrent.tracked c := by
    simp [World.tracked, PoolExecutor.switchConfig, List.sum_append]
  exact ⟨fun c => by rw [hsum]; exact hclose.dialed c,
    fun c hc hopen => by rw [hsum]; exact hclose.covers c hc hopen⟩

theorem trackingEverywhere_afterInit (ks : String) (cfg : KsConfig) :
    TrackingEverywhere (World.afterInit hash ks cfg) :=
  TrackingEverywhere.switchConfig hash ⟨fun c => by simp [World.tracked, World.fresh],
    fun c hc => by simp [World.fresh, Driver.empty] at hc⟩ cfg

theorem TrackingEverywhere.step {w w' : World} (hw : TrackingEverywhere w)
    (hst : Step hash w w') : TrackingEverywhere w' := by
  cases hst with
  | spawn | read => exact ⟨hw.dialed, hw.covers⟩
  | call _ hp hm => exact hw.move hp hm rfl rfl
  | drop c₀ =>
    refine ⟨hw.dialed, fun c hc hopen => hw.covers c hc ?_⟩
    rw [Driver.close_closed, Bool.or_eq_false_iff] at hopen
    exact hopen.1
  | notify r =>
    cases r with
    | none => exact hw
    | some cfg =>
      simp only [watchConfig]
      split_ifs
      · exact hw.switchConfig hash cfg
      · exact hw

theorem Reachable.trackingEverywhere {ks : String} {cfg₀ : KsConfig} {w : World}
    (h : Reachable hash ks cfg₀ w) : TrackingEverywhere w := by
  induction h with
  | init => exact trackingEverywhere_afterInit hash ks cfg₀
  | step _ hst ih => exact ih.step hash hst

/-! ## 2. Every open connection has one owner -/

/-- **Every open connection is tracked by exactly one pool, across swaps.** In every state
    the pool-based executor reaches after `init()`, under any interleaving of
    `Query`/`Execute` calls, dial outcomes, connections closing on their own and config
    swaps: every open connection the driver dialed is on the `activeConns` of some pool the
    executor has built, current or superseded; no connection is on the lists of two pools;
    no list holds a connection twice; and every listed connection was dialed. -/
theorem connections_tracked_every_pool {ks : String} {cfg₀ : KsConfig} {w : World}
    (hw : Reachable hash ks cfg₀ w) :
    (∀ c < w.driver.next, w.driver.closed c = false →
      ∃ (q : Nat) (p : Pool), w.pools[q]? = some p ∧ c ∈ p.activeConns) ∧
    (∀ (q q' : Nat) (p p' : Pool) (c : Nat), w.pools[q]? = some p → w.pools[q']? = some p' →
      c ∈ p.activeConns → c ∈ p'.activeConns → q = q') ∧
    (∀ (q : Nat) (p : Pool), w.pools[q]? = some p → p.activeConns.Nodup) ∧
    (∀ (q : Nat) (p : Pool) (c : Nat), w.pools[q]? = some p → c ∈ p.activeConns →
      c < w.driver.next) := by
  have ok := Reachable.trackingEverywhere hash hw
  have hle (c : Nat) : w.tracked c ≤ 1 := (ok.dialed c).trans (by split <;> omega)
  refine ⟨fun c hc hopen => ?_, fun q q' p p' c hp hp' hc hc' => ?_, fun q p hp => ?_,
    fun q p c hp hc => ?_⟩
  · obtain ⟨n, hn, hne⟩ := List.exists_mem_ne_zero_of_sum_ne_zero
      (ne_of_eq_of_ne (ok.covers c hc hopen) one_ne_zero)
    obtain ⟨p, hmem, rfl⟩ := List.mem_map.mp hn
    obtain ⟨q, hq⟩ := List.mem_iff_getElem?.mp hmem
    exact ⟨q, p, hq, List.count_pos_iff.mp (Nat.pos_of_ne_zero hne)⟩
  · by_contra hne
    have := add_le_sum_of_ne hne (l := w.pools.map fun p => p.activeConns.count c)
      (x := p.activeConns.count c) (y := p'.activeConns.count c)
      (by simp [hp]) (by simp [hp'])
    have := List.count_pos_iff.mpr hc
    have := List.count_pos_iff.mpr hc'
    have := hle c
    unfold World.tracked at this; omega
  · exact List.nodup_iff_count_le_one.mpr fun c => (World.count_le_tracked hp c).trans (hle c)
  · have := (List.count_pos_iff.mpr hc).trans_le ((World.count_le_tracked hp c).trans (ok.dialed c))
    split_ifs at this with h
    · exact h
    · omega

/-! ## 3. The stranded connection is tracked -/

/-- A caller loads pool 0; the watcher swaps configs and closes pool 0; the caller then
    dials connection 0 through the closed pool. -/
def strandedRun : List Act :=
  [.spawn, .read 0, .notify (some strandCfg₁), .call 0 (.host "host1"), .call 0 .next,
   .call 0 .unestablished, .call 0 .next, .call 0 (.dial true)]

/-- The executor after `strandedRun`. -/
def stranded : World :=
  ((World.afterInit KsConfig.hostsHash "dummyks" strandCfg₀).run KsConfig.hostsHash
    strandedRun).getD (World.afterInit KsConfig.hostsHash "dummyks" strandCfg₀)

example : stranded.exec.pool = some 1 ∧ stranded.calls = [.using 0 (.out "host1" (some 0))] ∧
    (stranded.pools.map Pool.size) = [1, 0] := by
  decide

theorem stranded_reachable : Reachable KsConfig.hostsHash "dummyks" strandCfg₀ stranded :=
  World.run_reachable KsConfig.hostsHash .init
    (rfl : (World.afterInit KsConfig.hostsHash "dummyks" strandCfg₀).run KsConfig.hostsHash
      strandedRun = some stranded)

/-- Connection 0, open after the swap, is on some pool's list. -/
theorem connections_tracked_every_pool_stranded :
    Reachable KsConfig.hostsHash "dummyks" strandCfg₀ stranded ∧ 0 < stranded.driver.next ∧
      stranded.driver.closed 0 = false ∧
      ∃ (q : Nat) (p : Pool), stranded.pools[q]? = some p ∧ 0 ∈ p.activeConns :=
  have hlt : 0 < stranded.driver.next := by decide
  have hopen : stranded.driver.closed 0 = false := by decide
  ⟨stranded_reachable, hlt, hopen,
    (connections_tracked_every_pool _ stranded_reachable).1 0 hlt hopen⟩

end PoolExecutor
end Gocassa
end ServiceLayer
