import ServiceLayer.Gocassa.Executor
import ServiceLayer.Gocassa.Slots

/-!
# Slots across pool swaps

`Close()` closes the connections on `activeConns` and empties it, and leaves the host
channels alone ("The host channels will be handled by checkout()"). A caller that loaded a
pool before a swap keeps using that pool's channels after `switchConfig` has closed it. So
can its `checkin` still block?

It cannot. Slot conservation (`Slots.lean`) holds for every pool the executor has built,
current or superseded, counting the callers that work on that pool
(`slots_conserved_every_pool`). Every caller that holds a slot therefore finds room on the
queue it returns the slot to. Only the caller's own pool changes when it moves, by the
move `CallMove.slots_balance` describes. `switchConfig` leaves every pool's channels as they
were and appends a pool no caller uses yet.

So no `Query`/`Execute` call is ever stuck, before or after a swap, while every pool lists
a host (`query_returns`). After `init()`, `e.pool` is always set, so loading it never
waits. On the pool it loaded, current or closed, a call then has the enabled step
`callStep_progress` gives. A call's own steps build no pool, so the host lists stay.
-/

set_option autoImplicit false

namespace ServiceLayer
namespace Gocassa
namespace PoolExecutor

open Go

/-- The caller works on pool `pid` and holds one of `h`'s slots there. -/
def Caller.holdsOn (pid : Nat) (h : Host) : Caller → Bool
  | .using q ph => q == pid && ph.holds h
  | .reading => false

/-- How many callers hold one of `h`'s slots of pool `pid`. -/
def World.inflightOn (w : World) (pid : Nat) (h : Host) : Nat :=
  w.calls.countP (Caller.holdsOn pid h)

/-- Slot conservation for one pool, against the callers holding its slots. -/
structure PoolSlots (p : Pool) (inflight : Host → Nat) : Prop where
  capEstablished : ∀ h, capAt p.established h = p.cfg.slots h
  capUnestablished : ∀ h, capAt p.unestablished h = p.cfg.slots h
  conserved : ∀ h, lenAt p.established h + lenAt p.unestablished h + inflight h = p.cfg.slots h

/-! ## 1. One pool -/

theorem poolSlots_init (cfg : KsConfig) : PoolSlots (Pool.init cfg) fun _ => 0 :=
  ⟨(Sys.slotsOk_init cfg).capEstablished, (Sys.slotsOk_init cfg).capUnestablished,
    (Sys.slotsOk_init cfg).conserved⟩

/-- Conservation depends on the channels and the config, and on how many slots the callers
    hold. -/
theorem PoolSlots.congr {p q : Pool} {f g : Host → Nat} (hp : PoolSlots p f)
    (he : q.established = p.established) (hu : q.unestablished = p.unestablished)
    (hc : q.cfg = p.cfg) (hf : ∀ h, g h = f h) : PoolSlots q g := by
  refine ⟨fun h => ?_, fun h => ?_, fun h => ?_⟩
  · rw [he, hc]; exact hp.capEstablished h
  · rw [hu, hc]; exact hp.capUnestablished h
  · rw [he, hu, hc, hf]; exact hp.conserved h

/-- A caller's move on the pool keeps its conservation, once the callers' slots are
    recounted: `f` before the move, `g` after. -/
theorem PoolSlots.move {p p' : Pool} {d d' : Driver} {ph ph' : Phase} {f g : Host → Nat}
    (hp : PoolSlots p f) (hm : CallMove p d ph p' d' ph')
    (hg : ∀ h, g h + (if ph.holds h then 1 else 0) = f h + (if ph'.holds h then 1 else 0)) :
    PoolSlots p' g := by
  refine ⟨fun h => ?_, fun h => ?_, fun h => hm.conserved (hp.conserved h) (hg h)⟩
  · rw [hm.cfg_eq, (hm.capAt_eq h).1]; exact hp.capEstablished h
  · rw [hm.cfg_eq, (hm.capAt_eq h).2]; exact hp.capUnestablished h

/-- A caller holding a slot of `h` finds room on both of `h`'s queues. -/
theorem PoolSlots.room {p : Pool} {f : Host → Nat} (hp : PoolSlots p f) {h : Host}
    (hpos : 0 < f h) :
    lenAt p.established h < capAt p.established h ∧
      lenAt p.unestablished h < capAt p.unestablished h := by
  have := hp.conserved h
  rw [hp.capEstablished h, hp.capUnestablished h]
  omega

/-! ## 2. Every pool of the executor -/

/-- Every caller works on a pool that exists, `e.pool` points at one, and every pool
    conserves its slots. -/
structure SlotsEverywhere (w : World) : Prop where
  callerPool : ∀ (i pid : Nat) (ph : Phase), w.calls[i]? = some (.using pid ph) →
    pid < w.pools.length
  currentPool : ∀ pid, w.exec.pool = some pid → pid < w.pools.length
  pools : ∀ (pid : Nat) (p : Pool), w.pools[pid]? = some p → PoolSlots p (w.inflightOn pid)

/-- `callerPool` asks which callers there are, not where they stand. -/
theorem callerPool_iff_mem {calls : List Caller} {n : Nat} :
    (∀ (i pid : Nat) (ph : Phase), calls[i]? = some (.using pid ph) → pid < n) ↔
      ∀ (pid : Nat) (ph : Phase), Caller.using pid ph ∈ calls → pid < n :=
  ⟨fun h pid ph hc => (List.mem_iff_getElem?.mp hc).elim fun i hi => h i pid ph hi,
    fun h _ pid ph hi => h pid ph (List.getElem?_mem hi)⟩

/-- What `if e.pool != nil { e.pool.Close() }` leaves: the same callers, as many pools,
    each with the channels and config it had. -/
theorem World.closeCurrent_pools (w : World) :
    w.closeCurrent.calls = w.calls ∧ w.closeCurrent.pools.length = w.pools.length ∧
      ∀ (q : Nat) (p : Pool), w.closeCurrent.pools[q]? = some p → ∃ p₀, w.pools[q]? = some p₀ ∧
        p.established = p₀.established ∧ p.unestablished = p₀.unestablished ∧ p.cfg = p₀.cfg := by
  have hsame := fun (q : Nat) (p : Pool) (hq : w.pools[q]? = some p) =>
    (⟨p, hq, rfl, rfl, rfl⟩ : ∃ p₀, w.pools[q]? = some p₀ ∧ p.established = p₀.established ∧
      p.unestablished = p₀.unestablished ∧ p.cfg = p₀.cfg)
  unfold World.closeCurrent
  split
  · split
    next _ p₀ hp₀ =>
      refine ⟨rfl, List.length_set .., fun q p hq => ?_⟩
      rw [List.getElem?_set] at hq
      split_ifs at hq with e
      · cases hq; subst e; exact ⟨p₀, hp₀, rfl, rfl, rfl⟩
      · exact hsame q p hq
    · exact ⟨rfl, rfl, hsame⟩
  · exact ⟨rfl, rfl, hsame⟩

/-- No caller holds a slot of a pool beyond the list. -/
theorem SlotsEverywhere.inflightOn_length {w : World} (hw : SlotsEverywhere w) (h : Host) :
    w.inflightOn w.pools.length h = 0 := by
  refine List.countP_eq_zero.mpr fun c hc => ?_
  obtain ⟨i, hi⟩ := List.mem_iff_getElem?.mp hc
  rcases c with _ | ⟨pid, ph⟩
  · simp [Caller.holdsOn]
  · have := hw.callerPool i pid ph hi
    simp [Caller.holdsOn, Nat.ne_of_lt this]

variable (hash : KsConfig → UInt32)

theorem SlotsEverywhere.switchConfig {w : World} (hw : SlotsEverywhere w) (cfg : KsConfig) :
    SlotsEverywhere (PoolExecutor.switchConfig hash w cfg) := by
  obtain ⟨hcalls, hlen, hpools⟩ := w.closeCurrent_pools
  refine ⟨fun i pid ph hi => ?_, fun pid hpid => ?_, fun q p hq => ?_⟩
  · simp only [PoolExecutor.switchConfig, hcalls, List.length_append, hlen] at hi ⊢
    exact Nat.lt_succ_of_lt (hw.callerPool i pid ph hi)
  · simp only [PoolExecutor.switchConfig, Option.some.injEq] at hpid
    simp [PoolExecutor.switchConfig, ← hpid]
  · have hin : ∀ h, (PoolExecutor.switchConfig hash w cfg).inflightOn q h = w.inflightOn q h :=
      fun h => by simp only [World.inflightOn, PoolExecutor.switchConfig, hcalls]
    simp only [PoolExecutor.switchConfig, List.getElem?_append, hlen] at hq
    split_ifs at hq with hlt
    · obtain ⟨p₀, hp₀, he, hu, hc⟩ := hpools q p hq
      exact (hw.pools q p₀ hp₀).congr he hu hc hin
    · simp only [List.getElem?_cons, List.getElem?_nil] at hq
      split_ifs at hq with hq₀
      cases hq
      obtain rfl : q = w.pools.length := by omega
      exact (poolSlots_init cfg).congr rfl rfl rfl fun h => by rw [hin, hw.inflightOn_length]

theorem slotsEverywhere_afterInit (ks : String) (cfg : KsConfig) :
    SlotsEverywhere (World.afterInit hash ks cfg) :=
  SlotsEverywhere.switchConfig hash ⟨by simp [World.fresh], by simp [World.fresh],
    by simp [World.fresh]⟩ cfg

theorem SlotsEverywhere.step {w w' : World} (hw : SlotsEverywhere w) (hst : Step hash w w') :
    SlotsEverywhere w' := by
  have hcp := callerPool_iff_mem.mp hw.callerPool
  cases hst with
  | spawn =>
    refine ⟨callerPool_iff_mem.mpr fun pid ph hc => hcp pid ph ?_, hw.currentPool,
      fun q p hq => (hw.pools q p hq).congr rfl rfl rfl fun h => ?_⟩
    · simpa using hc
    · simp [World.inflightOn, Caller.holdsOn]
  | @read i pid hi hp =>
    refine ⟨callerPool_iff_mem.mpr fun q ph hc => ?_, hw.currentPool,
      fun q p hq => (hw.pools q p hq).congr rfl rfl rfl fun h => ?_⟩
    · rcases List.mem_or_eq_of_mem_set hc with hc | he
      · exact hcp q ph hc
      · cases he; exact hw.currentPool pid hp
    · simpa [Caller.holdsOn, Phase.holds] using
        countP_set_add (Caller.holdsOn q h) (b := .using pid .pick) hi
  | @call i pid ph ph' p p' d' hi hp hm =>
    have hc := fun q h => countP_set_add (Caller.holdsOn q h) (b := .using pid ph') hi
    refine ⟨callerPool_iff_mem.mpr fun q ph₁ hq => ?_, fun q hq => ?_, fun q p₁ hq => ?_⟩
    · rw [List.length_set]
      rcases List.mem_or_eq_of_mem_set hq with hq | he
      · exact hcp q ph₁ hq
      · cases he; exact (List.getElem?_eq_some_iff.mp hp).1
    · rw [List.length_set]; exact hw.currentPool q hq
    · rw [List.getElem?_set] at hq
      split_ifs at hq with e
      · cases hq; subst e
        exact (hw.pools pid p hp).move hm fun h => by simpa [Caller.holdsOn] using hc pid h
      · exact (hw.pools q p₁ hq).congr rfl rfl rfl fun h => by
          simpa [Caller.holdsOn, e] using hc q h
  | drop => exact ⟨hw.callerPool, hw.currentPool, hw.pools⟩
  | notify r =>
    cases r with
    | none => exact hw
    | some cfg =>
      simp only [watchConfig]
      split_ifs
      · exact hw.switchConfig hash cfg
      · exact hw

theorem Reachable.slotsEverywhere {ks : String} {cfg₀ : KsConfig} {w : World}
    (h : Reachable hash ks cfg₀ w) : SlotsEverywhere w := by
  induction h with
  | init => exact slotsEverywhere_afterInit hash ks cfg₀
  | step _ hst ih => exact ih.step hash hst

/-! ## 3. No `checkin` blocks, on any pool -/

/-- A caller holding a slot of `h` finds room on both of `h`'s queues of the pool it works
    on. -/
theorem SlotsEverywhere.room {w : World} (hw : SlotsEverywhere w) {i pid : Nat} {ph : Phase}
    {p : Pool} {h : Host} (hi : w.calls[i]? = some (.using pid ph))
    (hp : w.pools[pid]? = some p) (hh : ph.holds h = true) :
    lenAt p.established h < capAt p.established h ∧
      lenAt p.unestablished h < capAt p.unestablished h :=
  (hw.pools pid p hp).room
    (List.countP_pos_iff.mpr ⟨_, List.getElem?_mem hi, by simp [Caller.holdsOn, hh]⟩)

/-- **Slot conservation in every pool, across swaps.** In every state the pool-based
    executor reaches after `init()`, under any interleaving of callers, connections closing
    and config swaps: every pool it has built, current or superseded and closed, has each
    listed host's queued connections, queued tokens and slots held by its callers add up to
    `NumConns`; and no caller's `checkin`, nor its return of the nil token after a failed
    dial, ever blocks, whichever pool it works on. -/
theorem slots_conserved_every_pool {ks : String} {cfg₀ : KsConfig} {w : World}
    (hw : Reachable hash ks cfg₀ w) :
    (∀ pid p h, w.pools[pid]? = some p → h ∈ p.cfg.hosts →
      lenAt p.established h + lenAt p.unestablished h + w.inflightOn pid h = p.cfg.numConns) ∧
    (∀ i pid h, w.calls[i]? = some (.using pid (.putBack h)) →
      (w.step hash (.call i .next)).isSome) ∧
    (∀ i pid h c, w.calls[i]? = some (.using pid (.out h (some c))) →
      (w.step hash (.call i .next)).isSome) := by
  have ok := hw.slotsEverywhere
  refine ⟨fun pid p h hp hh => ?_, fun i pid h hi => ?_, fun i pid h c hi => ?_⟩
  · have := (ok.pools pid p hp).conserved h
    rwa [KsConfig.slots, if_pos hh] at this
  · have hp := List.getElem?_eq_getElem (ok.callerPool i pid _ hi)
    have := (sendAt?_isSome _ h none).mpr (ok.room hi hp (by simp [Phase.holds])).2
    simpa [World.step, hi, hp, callStep, checkoutStep] using this
  · have hp := List.getElem?_eq_getElem (ok.callerPool i pid _ hi)
    have := (sendAt?_isSome _ h (some c)).mpr (ok.room hi hp (by simp [Phase.holds])).1
    simpa [World.step, hi, hp, callStep, Pool.checkin] using this

/-- A caller loads pool 0; the watcher swaps it for a pool on two hosts and closes it; the
    caller then takes `host1`'s nil token from the closed pool. -/
def swapRun : List Act :=
  [.spawn, .read 0, .notify (some strandCfg₁), .call 0 (.host "host1"), .call 0 .next,
   .call 0 .unestablished]

/-- The executor after `swapRun`. -/
def midSwap : World :=
  ((World.afterInit KsConfig.hostsHash "dummyks" strandCfg₀).run KsConfig.hostsHash
    swapRun).getD (World.afterInit KsConfig.hostsHash "dummyks" strandCfg₀)

/-- The superseded pool in `midSwap`. -/
def midSwapPool : Pool := (midSwap.pools[0]?).getD (Pool.init strandCfg₀)

example : midSwap.exec.pool = some 1 ∧ midSwap.calls = [.using 0 (.got "host1" none)] := by
  decide

theorem midSwap_reachable : Reachable KsConfig.hostsHash "dummyks" strandCfg₀ midSwap :=
  World.run_reachable KsConfig.hostsHash .init
    (rfl : (World.afterInit KsConfig.hostsHash "dummyks" strandCfg₀).run KsConfig.hostsHash
      swapRun = some midSwap)

theorem slots_conserved_every_pool_midSwap :
    Reachable KsConfig.hostsHash "dummyks" strandCfg₀ midSwap ∧
      lenAt midSwapPool.established "host1" + lenAt midSwapPool.unestablished "host1" +
        midSwap.inflightOn 0 "host1" = midSwapPool.cfg.numConns :=
  ⟨midSwap_reachable,
    (slots_conserved_every_pool _ midSwap_reachable).1 0 midSwapPool "host1" rfl (by decide)⟩

/-! ## 4. Every `Query`/`Execute` returns, across swaps -/

/-- At most how many more steps a `Query`/`Execute` call takes: loading `e.pool`, then its
    steps on the pool it loaded. -/
def Caller.rank : Caller → Nat
  | .reading => 7
  | .using _ ph => ph.rank

theorem Caller.rank_le (c : Caller) : c.rank ≤ 7 := by
  rcases c with _ | ⟨_, ph⟩
  exacts [le_rfl, ph.rank_le.trans (Nat.le_succ 6)]

/-- The steps a caller takes itself: loading `e.pool`, and its steps on that pool. -/
def Act.ofCaller (i : Nat) : Act → Bool
  | .read j | .call j _ => j == i
  | _ => false

/-- Every pool the executor has built is on at least one host. -/
def HostsOk (w : World) : Prop := ∀ p ∈ w.pools, p.cfg.hosts ≠ []

/-- A call that has not returned has a step of its own that lowers its rank: `e.pool` is
    set, and on the pool it loaded the step `callStep_progress` gives is enabled. The step
    builds no pool and changes no pool's config. -/
theorem SlotsEverywhere.progress {w : World} (hw : SlotsEverywhere w) (hh : HashOk hash w)
    (hne : HostsOk w) {i : Nat} {c : Caller} (hi : w.calls[i]? = some c)
    (hd : ∀ pid, c ≠ .using pid .done) :
    ∃ a w' c', a.ofCaller i ∧ w.step hash a = some w' ∧ HostsOk w' ∧ w'.calls[i]? = some c' ∧
      c'.rank < c.rank := by
  have hlt : i < w.calls.length := (List.getElem?_eq_some_iff.mp hi).1
  rcases c with _ | ⟨pid, ph⟩
  · obtain ⟨pid, -, hpid, -⟩ := hh
    exact ⟨.read i, { w with calls := w.calls.set i (.using pid .pick) }, _, by simp [Act.ofCaller],
      by simp [World.step, hi, hpid], hne, List.getElem?_set_self hlt,
      by simp [Caller.rank, Phase.rank]⟩
  · have hpid := hw.callerPool i pid ph hi
    have hp := List.getElem?_eq_getElem hpid
    have hhosts := hne _ (List.getElem_mem hpid)
    obtain ⟨o, ⟨p', d', ph'⟩, hc, hr⟩ := callStep_progress _ w.driver (fun e => hd pid (e ▸ rfl))
      hhosts fun h hh => hw.room hi hp hh
    refine ⟨.call i o,
      { w with pools := w.pools.set pid p', driver := d', calls := w.calls.set i (.using pid ph') },
      _, by simp [Act.ofCaller], by simp [World.step, hi, hp, hc], fun q hq => ?_,
      List.getElem?_set_self hlt, hr⟩
    rcases List.mem_or_eq_of_mem_set hq with hq | rfl
    · exact hne q hq
    · rwa [(callStep_move hc).cfg_eq]

/-- Run on its own from a reachable state, a call returns within its rank. -/
theorem Reachable.queryReturns {ks : String} {cfg₀ : KsConfig} {w : World}
    (hw : Reachable hash ks cfg₀ w) (hne : HostsOk w) {i : Nat} {c : Caller}
    (hi : w.calls[i]? = some c) :
    ∃ (as : List Act) (w' : World) (pid : Nat), as.length ≤ c.rank ∧ (∀ a ∈ as, a.ofCaller i) ∧
      w.run hash as = some w' ∧ w'.calls[i]? = some (.using pid .done) := by
  by_cases hd : ∃ pid, c = .using pid .done
  · obtain ⟨pid, rfl⟩ := hd
    exact ⟨[], w, pid, Nat.zero_le _, by simp, rfl, hi⟩
  · obtain ⟨a, w₁, c₁, ha, h₁, hne₁, hi₁, hr⟩ :=
      (Reachable.slotsEverywhere hash hw).progress hash (Reachable.hashOk hash hw) hne hi
        fun pid e => hd ⟨pid, e⟩
    obtain ⟨as, w', pid, hlen, hown, hrun, hdone⟩ :=
      (hw.step (World.step_sound hash h₁)).queryReturns hne₁ hi₁
    refine ⟨a :: as, w', pid, ?_, ?_, by simp [World.run, h₁, hrun], hdone⟩
    · rw [List.length_cons]; omega
    · simpa [ha] using hown
termination_by c.rank

/-- **Every `Query`/`Execute` returns, across swaps.** In every state the pool-based
    executor reaches after `init()`, under any interleaving of callers, connections closing
    and config swaps, if every pool it has built is on at least one host, a call that has
    not returned can return within seven steps of its own: it loads `e.pool`, then takes at
    most six steps on the pool it loaded, current or superseded and closed, through a host
    of that pool's config. -/
theorem query_returns {ks : String} {cfg₀ : KsConfig} {w : World}
    (hw : Reachable hash ks cfg₀ w) (hne : ∀ p ∈ w.pools, p.cfg.hosts ≠ []) {i : Nat}
    {c : Caller} (hi : w.calls[i]? = some c) :
    ∃ (as : List Act) (w' : World) (pid : Nat), as.length ≤ 7 ∧
      (∀ a ∈ as, a.ofCaller i) ∧ w.run hash as = some w' ∧ w'.calls[i]? = some (.using pid .done) :=
  let ⟨as, w', pid, hlen, hown, hrun, hdone⟩ := hw.queryReturns hash hne hi
  ⟨as, w', pid, hlen.trans c.rank_le, hown, hrun, hdone⟩

/-- In `midSwap` the caller, holding the nil token of the closed pool, still returns. -/
theorem query_returns_midSwap :
    (∀ p ∈ midSwap.pools, p.cfg.hosts ≠ []) ∧
      midSwap.calls[0]? = some (.using 0 (.got "host1" none)) ∧
      ∃ (as : List Act) (w' : World) (pid : Nat), as.length ≤ 7 ∧
        (∀ a ∈ as, a.ofCaller 0) ∧ midSwap.run KsConfig.hostsHash as = some w' ∧
        w'.calls[0]? = some (.using pid .done) :=
  have hne : ∀ p ∈ midSwap.pools, p.cfg.hosts ≠ [] := by decide
  have hi : midSwap.calls[0]? = some (.using 0 (.got "host1" none)) := by decide
  ⟨hne, hi, query_returns _ midSwap_reachable hne hi⟩

end PoolExecutor
end Gocassa
end ServiceLayer
