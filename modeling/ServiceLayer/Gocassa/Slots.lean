import ServiceLayer.Gocassa.Pool

/-!
# Slot conservation: no slot is lost, none is made, no send on a host queue blocks

A host of the pool's config starts with `NumConns` slots, all of them nil tokens on its
unestablished queue. From then on each slot is in exactly one place: queued established,
queued unestablished, or held by one caller between taking it off a queue and giving it back
(`Phase.holds`). The law is

    len(established[h]) + len(unestablished[h]) + (callers holding a slot of h) = NumConns

for every host, in every state any interleaving reaches. Its use is the second half of the
theorem: the only sends the pool makes on a host queue, `checkin`'s return of a connection and
`checkout`'s return of the nil token after a failed dial, are each made by a caller that
holds a slot of that host, so the queue has room and the send completes.

The proof is the shape every invariant of the pool takes. `CallMove.slots_balance` says
what one caller's move does to the three terms (it moves one slot from a queue to the
caller or back, or leaves all three alone); `SlotsOk.step` lifts that through the caller
list with `countP_set_add`; `Reachable.slotsOk` is the induction.

With the sends enabled, no call on a pool with at least one host can be stuck
(`call_returns`). Every other step of a call is enabled whatever the queues hold:
`p.hp.Get()` answers a host of the config, the first receive has a `default`, the inner
select has its timer, and `connect` returns. So a call run on its own returns within six
steps, one `Phase.rank` lower each.
-/

set_option autoImplicit false

namespace ServiceLayer
namespace Gocassa

open Go

/-- The caller holds one of `h`'s slots: it took one off a queue of `h` and has neither put
    the token back nor checked the connection in. -/
def Phase.holds (h : Host) : Phase → Bool
  | .got h' _ | .dial h' | .putBack h' | .out h' (some _) => h == h'
  | _ => false

/-- The slots `init` gives a host: `NumConns` to a listed host, none to any other. -/
def KsConfig.slots (cfg : KsConfig) (h : Host) : Nat := if h ∈ cfg.hosts then cfg.numConns else 0

/-! ## 1. One caller's move -/

section Move

variable {p p' : Pool} {d d' : Driver} {ph ph' : Phase}

/-- A caller's move changes no channel's capacity. -/
theorem CallMove.capAt_eq (hm : CallMove p d ph p' d' ph') (h : Host) :
    capAt p'.established h = capAt p.established h ∧
      capAt p'.unestablished h = capAt p.unestablished h := by
  cases hm with
  | takeEstablished _ _ _ _ hr => exact ⟨recvAt?_capAt hr h, rfl⟩
  | takeUnestablished _ _ _ hr => exact ⟨rfl, recvAt?_capAt hr h⟩
  | putBack _ _ hs => exact ⟨rfl, sendAt?_capAt hs h⟩
  | checkin _ _ _ hs => exact ⟨sendAt?_capAt hs h, rfl⟩
  | _ => exact ⟨rfl, rfl⟩

/-- **What one move does to the slots of `h`**: what leaves a queue is now held by the
    caller, what the caller gives back is queued again, and every other move touches
    neither. -/
theorem CallMove.slots_balance (hm : CallMove p d ph p' d' ph') (h : Host) :
    lenAt p'.established h + lenAt p'.unestablished h + (if ph'.holds h then 1 else 0) =
      lenAt p.established h + lenAt p.unestablished h + (if ph.holds h then 1 else 0) := by
  cases hm with
  | takeEstablished _ _ _ hph hr =>
    have := recvAt?_lenAt hr h
    rcases hph with rfl | rfl <;> simp only [Phase.holds, beq_iff_eq, Bool.false_eq_true] at * <;>
      split_ifs at * <;> omega
  | takeUnestablished _ _ _ hr =>
    have := recvAt?_lenAt hr h
    simp only [Phase.holds, beq_iff_eq, Bool.false_eq_true] at *
    split_ifs at * <;> omega
  | putBack _ _ hs =>
    have := sendAt?_lenAt hs h
    simp only [Phase.holds, beq_iff_eq, Bool.false_eq_true] at *
    split_ifs at * <;> omega
  | checkin _ _ _ hs =>
    have := sendAt?_lenAt hs h
    simp only [Phase.holds, beq_iff_eq, Bool.false_eq_true] at *
    split_ifs at * <;> omega
  | _ => simp [Phase.holds]

/-- A move keeps its pool's conservation law for `h`, once the slots held by the other
    callers are recounted: `f` before the move, `g` after. -/
theorem CallMove.conserved (hm : CallMove p d ph p' d' ph') {h : Host} {f g : Nat}
    (hcons : lenAt p.established h + lenAt p.unestablished h + f = p.cfg.slots h)
    (hg : g + (if ph.holds h then 1 else 0) = f + (if ph'.holds h then 1 else 0)) :
    lenAt p'.established h + lenAt p'.unestablished h + g = p'.cfg.slots h := by
  have := hm.slots_balance h
  rw [hm.cfg_eq]
  omega

end Move

/-! ## 2. The invariant, and every run keeps it -/

namespace Sys

/-- How many callers hold one of `h`'s slots. -/
def inflight (s : Sys) (h : Host) : Nat := s.calls.countP (Phase.holds h)

/-- Slot conservation, with the channel capacities it is measured against. -/
structure SlotsOk (s : Sys) : Prop where
  capEstablished : ∀ h, capAt s.pool.established h = s.pool.cfg.slots h
  capUnestablished : ∀ h, capAt s.pool.unestablished h = s.pool.cfg.slots h
  conserved : ∀ h,
    lenAt s.pool.established h + lenAt s.pool.unestablished h + s.inflight h = s.pool.cfg.slots h

theorem slotsOk_init (cfg : KsConfig) : SlotsOk (init cfg) := by
  refine ⟨fun h => ?_, fun h => ?_, fun h => ?_⟩ <;>
    by_cases hh : h ∈ cfg.hosts <;>
    simp [init, inflight, KsConfig.slots, capAt, lenAt, Pool.init_established,
      Pool.init_unestablished, hh, Chan.make, Chan.full]

theorem SlotsOk.step {s s' : Sys} (hs : SlotsOk s) (hst : Step s s') : SlotsOk s' := by
  cases hst with
  | spawn =>
    exact ⟨hs.capEstablished, hs.capUnestablished,
      fun h => by simpa [inflight, Phase.holds] using hs.conserved h⟩
  | @call i ph p d ph' hi hm =>
    refine ⟨fun h => ?_, fun h => ?_, fun h => ?_⟩
    · rw [hm.cfg_eq, (hm.capAt_eq h).1]; exact hs.capEstablished h
    · rw [hm.cfg_eq, (hm.capAt_eq h).2]; exact hs.capUnestablished h
    · exact hm.conserved (hs.conserved h) (countP_set_add (Phase.holds h) hi)
  | drop | close => exact ⟨hs.capEstablished, hs.capUnestablished, hs.conserved⟩

theorem Reachable.slotsOk {cfg : KsConfig} {s : Sys} (h : Reachable cfg s) : SlotsOk s := by
  induction h with
  | init => exact slotsOk_init cfg
  | step _ hst ih => exact ih.step hst

/-! ## 3. Conservation, and the sends it keeps from blocking -/

/-- A caller holding a slot of `h` makes the host's queues short of their capacity. -/
theorem SlotsOk.room {s : Sys} (hs : SlotsOk s) {i : Nat} {ph : Phase} {h : Host}
    (hi : s.calls[i]? = some ph) (hh : ph.holds h = true) :
    lenAt s.pool.established h < capAt s.pool.established h ∧
      lenAt s.pool.unestablished h < capAt s.pool.unestablished h := by
  have hpos : 0 < s.inflight h :=
    List.countP_pos_iff.mpr ⟨ph, List.mem_iff_getElem?.mpr ⟨i, hi⟩, hh⟩
  have := hs.conserved h
  rw [hs.capEstablished h, hs.capUnestablished h]
  omega

/-- **Slot conservation.** In every state that any interleaving of any number of
    `Query`/`Execute` calls reaches from `init()`, with any dial outcomes, any connections
    found closed, any host choices and any `Close`, each listed host's queued connections,
    queued tokens and held slots add up to `NumConns`; and the two sends on a host queue,
    `checkin`'s and the nil-token return after a failed dial, are always enabled. -/
theorem slots_conserved {cfg : KsConfig} {s : Sys} (hs : Reachable cfg s) :
    (∀ h ∈ cfg.hosts,
      lenAt s.pool.established h + lenAt s.pool.unestablished h + s.inflight h = cfg.numConns) ∧
    (∀ i h, s.calls[i]? = some (.putBack h) → (s.step (.call i .next)).isSome) ∧
    (∀ i h c, s.calls[i]? = some (.out h (some c)) → (s.step (.call i .next)).isSome) := by
  have hok := hs.slotsOk
  refine ⟨fun h hh => ?_, fun i h hi => ?_, fun i h c hi => ?_⟩
  · have := hok.conserved h
    rwa [hs.cfg_eq, KsConfig.slots, if_pos hh] at this
  · have := (sendAt?_isSome s.pool.unestablished h none).mpr (hok.room hi (by simp [Phase.holds])).2
    simpa [step, hi, callStep, checkoutStep, Pool.checkin] using this
  · have :=
      (sendAt?_isSome s.pool.established h (some c)).mpr (hok.room hi (by simp [Phase.holds])).1
    simpa [step, hi, callStep, checkoutStep, Pool.checkin] using this

/-- At the end of the reuse test, host `host1`'s two slots: one held by the second caller,
    one still a token. -/
theorem slots_conserved_reuse :
    Reachable reuseCfg reuseState ∧
      lenAt reuseState.pool.established "host1" + lenAt reuseState.pool.unestablished "host1" +
        reuseState.inflight "host1" = 2 :=
  ⟨reuseState_reachable, (slots_conserved reuseState_reachable).1 "host1" (by decide)⟩

end Sys

/-! ## 4. Every call returns -/

/-- At most how many more steps a call at `ph` takes, when the inner select takes the timer
    and a dial fails. -/
def Phase.rank : Phase → Nat
  | .pick => 6
  | .poll _ => 5
  | .got _ _ => 4
  | .dial _ => 3
  | .wait _ | .putBack _ => 2
  | .out _ _ => 1
  | .done => 0

theorem Phase.rank_le (ph : Phase) : ph.rank ≤ 6 := by
  cases ph <;> simp [Phase.rank]

/-- **A call that has not returned can move closer to returning**, given a configured host
    and room on both queues of every host it holds a slot of: `p.hp.Get()` answers one of
    `p.Cfg.hosts`, the non-blocking receive does not wait, the timer ends the inner select,
    a failed dial leads to the token's return, and the two sends find room. -/
theorem callStep_progress (p : Pool) (d : Driver) {ph : Phase} (hd : ph ≠ .done)
    (hne : p.cfg.hosts ≠ [])
    (hroom : ∀ h, ph.holds h = true → lenAt p.established h < capAt p.established h ∧
      lenAt p.unestablished h < capAt p.unestablished h) :
    ∃ o r, callStep p d ph o = some r ∧ r.2.2.rank < ph.rank := by
  cases ph with
  | pick =>
    obtain ⟨h, hh⟩ := List.exists_mem_of_ne_nil _ hne
    exact ⟨.host h, (p, d, .poll h), by simp [callStep, checkoutStep, hh], by simp [Phase.rank]⟩
  | poll h =>
    cases hr : recvAt? p.established h with
    | none =>
      exact ⟨.next, (p, d, .wait h), by simp [callStep, checkoutStep, hr], by simp [Phase.rank]⟩
    | some r =>
      exact ⟨.next, ({ p with established := r.2 }, d, .got h r.1),
        by simp [callStep, checkoutStep, hr], by simp [Phase.rank]⟩
  | wait h => exact ⟨.timer, _, rfl, by simp [Phase.rank]⟩
  | got h c =>
    cases c with
    | none => exact ⟨.next, _, rfl, by simp [Phase.rank]⟩
    | some c =>
      refine ⟨.next, _, rfl, ?_⟩
      split <;> simp [Phase.rank]
  | dial h => exact ⟨.dial false, _, rfl, by simp [Phase.rank]⟩
  | putBack h =>
    obtain ⟨un, hs⟩ := Option.isSome_iff_exists.mp
      ((sendAt?_isSome p.unestablished h none).mpr (hroom h (by simp [Phase.holds])).2)
    exact ⟨.next, ({ p with unestablished := un }, d, .out h none),
      by simp [callStep, checkoutStep, hs], by simp [Phase.rank]⟩
  | out h c =>
    cases c with
    | none => exact ⟨.next, _, rfl, by simp [Phase.rank]⟩
    | some c =>
      obtain ⟨est, hs⟩ := Option.isSome_iff_exists.mp
        ((sendAt?_isSome p.established h (some c)).mpr (hroom h (by simp [Phase.holds])).1)
      exact ⟨.next, ({ p with established := est }, d, .done),
        by simp [callStep, Pool.checkin, hs], by simp [Phase.rank]⟩
  | done => exact absurd rfl hd

namespace Sys

theorem SlotsOk.progress {s : Sys} (hs : SlotsOk s) (hne : s.pool.cfg.hosts ≠ []) {i : Nat}
    {ph : Phase} (hi : s.calls[i]? = some ph) (hd : ph ≠ .done) :
    ∃ o s' ph', s.step (.call i o) = some s' ∧ s'.calls[i]? = some ph' ∧ ph'.rank < ph.rank := by
  obtain ⟨o, ⟨p', d', ph'⟩, hc, hr⟩ :=
    callStep_progress s.pool s.driver hd hne fun h hh => hs.room hi hh
  exact ⟨o, ⟨p', d', s.calls.set i ph'⟩, ph', by simp [Sys.step, hi, hc],
    List.getElem?_set_self (List.getElem?_eq_some_iff.mp hi).1, hr⟩

/-- Run on its own from a reachable state, a call at `ph` returns within `ph.rank` steps. -/
theorem Reachable.returns {cfg : KsConfig} {s : Sys} (hs : Reachable cfg s)
    (hne : cfg.hosts ≠ []) {i : Nat} {ph : Phase} (hi : s.calls[i]? = some ph) :
    ∃ (os : List Choice) (s' : Sys), os.length ≤ ph.rank ∧
      s.run (os.map (.call i)) = some s' ∧ s'.calls[i]? = some .done := by
  by_cases hd : ph = .done
  · subst hd
    exact ⟨[], s, Nat.zero_le _, rfl, hi⟩
  · obtain ⟨o, s₁, ph₁, h₁, hi₁, hr⟩ := hs.slotsOk.progress (hs.cfg_eq ▸ hne) hi hd
    obtain ⟨os, s', hlen, hrun, hdone⟩ := (hs.step (step_sound h₁)).returns hne hi₁
    refine ⟨o :: os, s', ?_, by simp [run, h₁, hrun], hdone⟩
    rw [List.length_cons]
    omega
termination_by ph.rank

/-- **Every call returns.** On a pool configured with at least one host, in every state any
    interleaving of calls, dial outcomes, connections closing and `Close` reaches from
    `init()`, each `Query`/`Execute` call that has not returned can return in at most six
    steps of its own, through a host of the config, however many slots the other calls
    hold: an exhausted host ends in the timer's nil connection, not in a block. -/
theorem call_returns {cfg : KsConfig} {s : Sys} (hs : Reachable cfg s) (hne : cfg.hosts ≠ [])
    {i : Nat} {ph : Phase} (hi : s.calls[i]? = some ph) :
    ∃ (os : List Choice) (s' : Sys), os.length ≤ 6 ∧
      s.run (os.map (.call i)) = some s' ∧ s'.calls[i]? = some .done :=
  let ⟨os, s', hlen, hrun, hdone⟩ := hs.returns hne hi
  ⟨os, s', hlen.trans ph.rank_le, hrun, hdone⟩

/-- The reuse test's pool after a third call arrives: it has yet to pick a host. -/
def reuseSpawned : Sys := (reuseState.step .spawn).getD reuseState

theorem call_returns_reuse :
    Reachable reuseCfg reuseSpawned ∧ reuseCfg.hosts ≠ [] ∧ reuseSpawned.calls[2]? = some .pick ∧
      ∃ (os : List Choice) (s' : Sys), os.length ≤ 6 ∧
        reuseSpawned.run (os.map (.call 2)) = some s' ∧ s'.calls[2]? = some .done :=
  have hs : Reachable reuseCfg reuseSpawned := reuseState_reachable.step (.spawn _)
  have hne : reuseCfg.hosts ≠ [] := by decide
  have hi : reuseSpawned.calls[2]? = some .pick := by decide
  ⟨hs, hne, hi, call_returns hs hne hi⟩

end Sys

end Gocassa
end ServiceLayer
