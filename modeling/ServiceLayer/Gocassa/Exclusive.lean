import ServiceLayer.Gocassa.Slots

/-!
# Exclusive use and host affinity of pooled connections

A connection the pool hands out is in one place at a time. Counting, for a host `h` and a
connection `c`, the copies of `c` queued on `h`'s two channels plus the callers that have `c`
in hand for `h` (`Sys.occ`), the invariant is

    occ h c ≤ (1 if the driver dialed c to h, else 0)             (`Driver.owns`)

So a connection is found at most once, only among the queues and callers of the host it was
dialed to, and only after it was dialed. Everything below is read off that one
bound: two outstanding handles never share a connection, a handed-out connection is not also
queued, no connection is queued twice, and every queued or handed-out connection came from
`connect` of its host.

One move changes the count in one of two ways (`CallMove.occ_cases`): it moves a connection
between a queue and the caller or drops it (a closed connection found at checkout), and the
count does not grow; or it is a successful dial, and exactly the fresh connection appears,
for the dialed host, which is what `Driver.dial` adds to `owns`.
-/

set_option autoImplicit false

namespace ServiceLayer
namespace Gocassa

open Go

/-- The connection a caller has in hand for `h`: one it took off a queue of `h` and is about
    to test, or the one `checkout` returned for `h`. -/
def Phase.conn (h : Host) : Phase → Option Nat
  | .got h' c | .out h' c => if h = h' then c else none
  | _ => none

theorem Phase.conn_got (h h₀ : Host) (c₀ : Option Nat) (c : Nat) :
    ((Phase.got h₀ c₀).conn h = some c) = (h = h₀ ∧ c₀ = some c) := by
  by_cases e : h = h₀ <;> simp [Phase.conn, e]

theorem Phase.conn_out (h h₀ : Host) (c₀ : Option Nat) (c : Nat) :
    ((Phase.out h₀ c₀).conn h = some c) = (h = h₀ ∧ c₀ = some c) := by
  by_cases e : h = h₀ <;> simp [Phase.conn, e]

/-- How often `c` may be found among `h`'s queues and callers: once if the driver dialed it
    to `h`, never otherwise. -/
def Driver.owns (d : Driver) (h : Host) (c : Nat) : Nat :=
  if c < d.next ∧ d.host c = h then 1 else 0

/-- Copies of `c` queued on `h`'s two channels. -/
def Pool.queued (p : Pool) (h : Host) (c : Nat) : Nat :=
  countAt p.established h (some c) + countAt p.unestablished h (some c)

theorem Driver.owns_dial (d : Driver) (h₀ h : Host) (c : Nat) :
    (d.dial h₀).owns h c = d.owns h c + (if c = d.next ∧ h₀ = h then 1 else 0) := by
  unfold owns
  by_cases e : c = d.next
  · subst e; simp [dial_host]
  · have : c < d.next + 1 ↔ c < d.next := ⟨fun _ => by omega, fun _ => by omega⟩
    simp [dial_host, e, this]

/-! ## 1. One caller's move -/

section Move

variable {p p' : Pool} {d d' : Driver} {ph ph' : Phase}

/-- **The two ways a move changes the count.** -/
theorem CallMove.occ_cases (hm : CallMove p d ph p' d' ph') :
    (d' = d ∧ ∀ h c, p'.queued h c + (if ph'.conn h = some c then 1 else 0) ≤
        p.queued h c + (if ph.conn h = some c then 1 else 0)) ∨
    (∃ h₀, d' = d.dial h₀ ∧ ∀ h c, p'.queued h c + (if ph'.conn h = some c then 1 else 0) =
        p.queued h c + (if ph.conn h = some c then 1 else 0) +
          (if c = d.next ∧ h₀ = h then 1 else 0)) := by
  cases hm with
  | connected h₀ =>
    refine .inr ⟨h₀, rfl, fun h c => ?_⟩
    by_cases e : h₀ = h
    · subst e
      by_cases e' : c = d.next
      · simp [Pool.queued, Phase.conn, e']
      · simp [Pool.queued, Phase.conn, e', Ne.symm e']
    · simp [Pool.queued, Phase.conn, e, Ne.symm e]
  | takeEstablished h₀ c₀ _ hph hr =>
    refine .inl ⟨rfl, fun h c => ?_⟩
    have := recvAt?_countAt hr h (some c)
    rcases hph with rfl | rfl <;>
      simp only [Pool.queued, ↓Phase.conn_got, Phase.conn, reduceCtorEq, if_false] at this ⊢ <;>
      omega
  | takeUnestablished h₀ c₀ _ hr =>
    refine .inl ⟨rfl, fun h c => ?_⟩
    have := recvAt?_countAt hr h (some c)
    simp only [Pool.queued, ↓Phase.conn_got, Phase.conn, reduceCtorEq, if_false] at this ⊢
    omega
  | putBack h₀ _ hs =>
    refine .inl ⟨rfl, fun h c => ?_⟩
    have := sendAt?_countAt hs h (some c)
    simp only [Pool.queued, ↓Phase.conn_out, Phase.conn, reduceCtorEq, and_false, if_false,
      Nat.add_zero] at this ⊢
    omega
  | checkin h₀ c₀ _ hs =>
    refine .inl ⟨rfl, fun h c => ?_⟩
    have := sendAt?_countAt hs h (some c)
    simp only [Pool.queued, ↓Phase.conn_out, Phase.conn, reduceCtorEq, if_false,
      Option.some.injEq] at this ⊢
    omega
  | redialClosed | redialNil | reuse | timeout | checkinNil | failed | miss | pick =>
    exact .inl ⟨rfl, fun h c => by simp only [Phase.conn]; split_ifs <;> simp_all⟩

end Move

/-! ## 2. The invariant -/

namespace Sys

/-- Copies of `c` among `h`'s queues and the callers holding it for `h`. -/
def occ (s : Sys) (h : Host) (c : Nat) : Nat :=
  s.pool.queued h c + s.calls.countP fun ph => ph.conn h = some c

/-- Every connection is found at most once, and only where the driver dialed it. -/
def ExclusiveOk (s : Sys) : Prop := ∀ h c, s.occ h c ≤ s.driver.owns h c

theorem exclusiveOk_init (cfg : KsConfig) : ExclusiveOk (init cfg) := by
  intro h c
  by_cases hh : h ∈ cfg.hosts <;>
    simp [occ, init, Pool.queued, countAt, Pool.init_established, Pool.init_unestablished, hh,
      Chan.make, Chan.full, List.count_replicate]

theorem ExclusiveOk.step {s s' : Sys} (hs : ExclusiveOk s) (hst : Step s s') : ExclusiveOk s' := by
  cases hst with
  | spawn => intro h c; simpa [occ, Phase.conn] using hs h c
  | @call i ph p d ph' hi hm =>
    intro h c
    have hc := countP_set_add (fun ph => decide (ph.conn h = some c)) (b := ph') hi
    have hold := hs h c
    simp only [occ, decide_eq_true_eq] at hc hold ⊢
    rcases hm.occ_cases with ⟨rfl, hle⟩ | ⟨h₀, rfl, heq⟩
    · have := hle h c; omega
    · have := heq h c
      have hfresh := hs h s.driver.next
      rw [Driver.owns_dial]
      by_cases e : c = s.driver.next ∧ h₀ = h
      · obtain ⟨rfl, rfl⟩ := e
        simp only [occ, Driver.owns, lt_irrefl, false_and, if_false] at hfresh
        simp only [and_self, if_true] at this ⊢
        omega
      · simp only [e, if_false] at this ⊢; omega
  | drop c₀ => intro h c; simpa [occ, Driver.owns] using hs h c
  | close => intro h c; simpa [occ, Pool.queued, Pool.close, Driver.owns,
      (Driver.foldl_close _ _).1, (Driver.foldl_close _ _).2.1] using hs h c

theorem Reachable.exclusiveOk {cfg : KsConfig} {s : Sys} (h : Reachable cfg s) :
    ExclusiveOk s := by
  induction h with
  | init => exact exclusiveOk_init cfg
  | step _ hst ih => exact ih.step hst

/-- Anything counted was dialed to that host. -/
theorem ExclusiveOk.owned {s : Sys} (hs : ExclusiveOk s) {h : Host} {c : Nat}
    (hpos : 0 < s.occ h c) : s.driver.host c = h ∧ c < s.driver.next := by
  have := hs h c
  unfold Driver.owns at this
  split_ifs at this with e
  · exact ⟨e.2, e.1⟩
  · omega

theorem held_pos_of_out {s : Sys} {i : Nat} {h : Host} {c : Nat}
    (hi : s.calls[i]? = some (.out h (some c))) :
    0 < s.calls.countP fun ph => ph.conn h = some c :=
  List.countP_pos_iff.mpr ⟨_, List.getElem?_mem hi, by simp [Phase.conn]⟩

theorem occ_pos_of_out {s : Sys} {i : Nat} {h : Host} {c : Nat}
    (hi : s.calls[i]? = some (.out h (some c))) : 0 < s.occ h c := by
  have := held_pos_of_out hi
  unfold occ; omega

theorem occ_pos_of_queued {s : Sys} {h : Host} {c : Nat}
    (hq : 0 < countAt s.pool.established h (some c)) : 0 < s.occ h c := by
  unfold occ Pool.queued; omega

/-! ## 3. Exclusive use, host affinity -/

/-- **Exclusive use and host affinity.** In every state any interleaving of `Query`/`Execute`
    calls reaches from `init()`, with any dial outcomes, connections found closed and host
    choices: no connection is held by two outstanding handles; none is held by a handle and
    queued established at once; none is queued twice, on one host's queue or on two; and
    every connection queued established for `h`, or held by a handle for `h`, was dialed to
    `h` by `connect`. -/
theorem checkout_exclusive {cfg : KsConfig} {s : Sys} (hs : Reachable cfg s) :
    (∀ (i j : Nat) (h h' : Host) (c : Nat), i ≠ j → s.calls[i]? = some (.out h (some c)) →
      s.calls[j]? = some (.out h' (some c)) → False) ∧
    (∀ (i : Nat) (h h' : Host) (c : Nat), s.calls[i]? = some (.out h (some c)) →
      countAt s.pool.established h' (some c) = 0) ∧
    (∀ h c, countAt s.pool.established h (some c) ≤ 1) ∧
    (∀ h h' c, 0 < countAt s.pool.established h (some c) →
      0 < countAt s.pool.established h' (some c) → h = h') ∧
    (∀ h c, 0 < countAt s.pool.established h (some c) →
      s.driver.host c = h ∧ c < s.driver.next) ∧
    (∀ (i : Nat) (h : Host) (c : Nat), s.calls[i]? = some (.out h (some c)) →
      s.driver.host c = h ∧ c < s.driver.next) := by
  have hok := hs.exclusiveOk
  have hone : ∀ h c, s.occ h c ≤ 1 := fun h c =>
    (hok h c).trans (by unfold Driver.owns; split <;> omega)
  refine ⟨fun i j h h' c hij hi hj => ?_, fun i h h' c hi => ?_, fun h c => ?_,
    fun h h' c hq hq' => ?_, fun h c hq => hok.owned (occ_pos_of_queued hq),
    fun i h c hi => hok.owned (occ_pos_of_out hi)⟩
  · obtain rfl : h = h' :=
      (hok.owned (occ_pos_of_out hi)).1.symm.trans (hok.owned (occ_pos_of_out hj)).1
    have := two_le_countP (fun ph => decide (ph.conn h = some c)) hij hi hj
      (by simp [Phase.conn]) (by simp [Phase.conn])
    have := hone h c
    unfold occ at this; omega
  · by_contra hq
    obtain rfl : h = h' := (hok.owned (occ_pos_of_out hi)).1.symm.trans
      (hok.owned (occ_pos_of_queued (Nat.pos_of_ne_zero hq))).1
    have := held_pos_of_out hi
    have := hone h c
    unfold occ Pool.queued at this; omega
  · have := hone h c
    unfold occ Pool.queued at this; omega
  · exact (hok.owned (occ_pos_of_queued hq)).1.symm.trans (hok.owned (occ_pos_of_queued hq')).1

/-- The connection the reuse test's second checkout holds was dialed to `host1`. -/
theorem checkout_exclusive_reuse :
    Reachable reuseCfg reuseState ∧ reuseState.driver.host 0 = "host1" :=
  ⟨reuseState_reachable,
    ((checkout_exclusive reuseState_reachable).2.2.2.2.2 1 "host1" 0 (by decide)).1⟩

end Sys

end Gocassa
end ServiceLayer
