import ServiceLayer.Gocassa.Slots

/-!
# Sequential use: every connection dialed is needed

`TestConnectionReuse` checks out, checks in and checks out again, and expects the second
checkout to get the first one's connection back. This file states the general law for
calls that do not overlap. Run one `checkout` or `checkin` at a time on a fresh pool, with
every `Connect` succeeding and no connection closing. Then the pool dials a host exactly as
many connections as the most non-nil handles for that host ever outstanding at once
(`sequential_reuse_maximal`).

A sequential run is not a second model. It is `Sys` scheduled one call at a time: a
`checkout` is a new caller's `callStep`s run back to back (`soloCheckout`), and a
`checkin` is one step. The only thing the schedule decides is the inner select's case.
A select with a ready case does not wait, and the five-second timer has not fired when the
select starts. So the timer wins only when both queues are empty (`seqChoice`). Every
sequential state is therefore `Reachable`, and slot conservation (`Slots.lean`) holds in
it.

Between calls, three counts of a host `h` are tied together (`SeqOk`): the connections
dialed to `h`, the connections queued on its established queue, and the non-nil handles
for `h` outstanding. The first is the sum of the other two. A checkout dials only after
its receive found the established queue empty, so a dial makes the dialed count equal to
the outstanding handles. No other step raises the dialed count.
-/

set_option autoImplicit false

namespace ServiceLayer
namespace Gocassa

open Go

/-! ## 1. Calls that do not overlap -/

/-- The choice a caller at `ph` makes on pool `p` when no other goroutine moves in between.
    `p.hp.Get()` answers `h` and `gocql.Connect` answers `ok`. The inner select takes a
    queue that holds a value, and its timer only when neither does. Both queues are never
    ready together there, since the receive just before found the established one empty. -/
def seqChoice (p : Pool) (h : Host) (ok : Bool) : Phase → Choice
  | .pick => .host h
  | .wait h' =>
    if (recvAt? p.established h').isSome then .established
    else if (recvAt? p.unestablished h').isSome then .unestablished
    else .timer
  | .dial _ => .dial ok
  | _ => .next

/-- A caller at `ph` runs alone until `checkout` has returned (`.out`), for at most `fuel`
    steps. -/
def soloCheckout (h : Host) (ok : Bool) :
    Nat → Pool → Driver → Phase → Option (Pool × Driver × Phase)
  | 0, _, _, _ => none
  | fuel + 1, p, d, ph =>
    match ph with
    | .out h' c => some (p, d, .out h' c)
    | _ => (callStep p d ph (seqChoice p h ok ph)).bind fun r =>
      soloCheckout h ok fuel r.1 r.2.1 r.2.2

/-- The call is between calls of the run: it holds its handle, or it has checked in. -/
def Phase.idle : Phase → Bool
  | .out _ _ | .done => true
  | _ => false

/-- A call still inside `checkout` takes its next step. Stated for a known phase, so that
    `simp` unfolds one step at a time. -/
theorem soloCheckout_succ {h : Host} {ok : Bool} {fuel : Nat} {p : Pool} {d : Driver}
    {ph : Phase} (hph : ph.idle = false) :
    soloCheckout h ok (fuel + 1) p d ph =
      (callStep p d ph (seqChoice p h ok ph)).bind fun r =>
        soloCheckout h ok fuel r.1 r.2.1 r.2.2 := by
  cases ph <;> simp only [Phase.idle, Bool.true_eq_false] at hph <;> rfl

theorem soloCheckout_out {h : Host} {ok : Bool} {fuel : Nat} {p : Pool} {d : Driver} {h' : Host}
    {c : Option Nat} : soloCheckout h ok (fuel + 1) p d (.out h' c) = some (p, d, .out h' c) := rfl

/-- One call of a sequential run. -/
inductive SeqOp where
  /-- A new call runs `checkout()` to its end: `hp.Get()` answers `h`, `Connect`
      answers `ok`. -/
  | checkout (h : Host) (ok : Bool)
  /-- Call `i` runs `checkin` on the handle it holds. -/
  | checkin (i : Nat)
  /-- Connection `c` closes on its own. -/
  | drop (c : Nat)
  deriving DecidableEq, Repr

/-- Every `Connect` succeeds and no connection closes. -/
def SeqOp.healthy : SeqOp → Bool
  | .checkout _ ok => ok
  | .checkin _ => true
  | .drop _ => false

/-- The call holds a non-nil handle for `h`. -/
def Phase.handleFor (h : Host) : Phase → Bool
  | .out h' (some _) => h == h'
  | _ => false

/-- How many connections `Connect` has handed out for `h`. -/
def Driver.dialedTo (d : Driver) (h : Host) : Nat :=
  (List.range d.next).countP fun c => d.host c = h

namespace Sys

/-- One operation of a sequential run; `none` when it does not apply (a `checkin` by a call
    that holds no handle) or blocks. -/
def seqStep (s : Sys) : SeqOp → Option Sys
  | .checkout h ok =>
    (soloCheckout h ok 7 s.pool s.driver .pick).map fun r => ⟨r.1, r.2.1, s.calls ++ [r.2.2]⟩
  | .checkin i =>
    match s.calls[i]? with
    | some (.out _ _) => s.step (.call i .next)
    | _ => none
  | .drop c => s.step (.drop c)

/-- Run a sequential schedule, stopping at the first operation that does not apply. -/
def seqRun : Sys → List SeqOp → Option Sys
  | s, [] => some s
  | s, op :: ops => (s.seqStep op).bind fun s' => seqRun s' ops

/-- The non-nil handles for `h` outstanding. -/
def outstanding (s : Sys) (h : Host) : Nat := s.calls.countP (Phase.handleFor h)

/-- The most non-nil handles for `h` outstanding at once along a sequential run from `s`,
    counted between its operations. -/
def peak (h : Host) : Sys → List SeqOp → Nat
  | s, [] => s.outstanding h
  | s, op :: ops => max (s.outstanding h) ((s.seqStep op).elim 0 fun s' => s'.peak h ops)

end Sys

/-! ## 2. A sequential run is a run of the pool -/

theorem Driver.dialedTo_dial (d : Driver) (h₀ h : Host) :
    (d.dial h₀).dialedTo h = d.dialedTo h + if h₀ = h then 1 else 0 := by
  unfold dialedTo
  rw [Driver.dial_next, List.range_succ, List.countP_append]
  congr 1
  · refine List.countP_congr fun c hc => ?_
    rw [Driver.dial_host, if_neg (Nat.ne_of_lt (List.mem_range.mp hc))]
  · by_cases e : h₀ = h <;> simp [Driver.dial_host, e]

namespace Sys

theorem step_call_last (p : Pool) (d : Driver) (calls : List Phase) (ph : Phase) (o : Choice) :
    (⟨p, d, calls ++ [ph]⟩ : Sys).step (.call calls.length o) =
      (callStep p d ph o).map fun r => ⟨r.1, r.2.1, calls ++ [r.2.2]⟩ := by
  simp [step]

theorem step_call_last_of {p p' : Pool} {d d' : Driver} {calls : List Phase} {ph ph' : Phase}
    {o : Choice} (h : callStep p d ph o = some (p', d', ph')) :
    (⟨p, d, calls ++ [ph]⟩ : Sys).step (.call calls.length o) =
      some ⟨p', d', calls ++ [ph']⟩ := by
  rw [step_call_last, h]
  rfl

theorem soloCheckout_reachable {cfg : KsConfig} {h : Host} {ok : Bool} {calls : List Phase} :
    ∀ (fuel : Nat) {p p' : Pool} {d d' : Driver} {ph ph' : Phase},
      Reachable cfg ⟨p, d, calls ++ [ph]⟩ →
      soloCheckout h ok fuel p d ph = some (p', d', ph') →
      Reachable cfg ⟨p', d', calls ++ [ph']⟩
  | 0, _, _, _, _, _, _, _, hr => by cases hr
  | fuel + 1, p, _, d, _, ph, _, hs, hr => by
    unfold soloCheckout at hr
    split at hr
    · cases hr; exact hs
    · obtain ⟨⟨p₁, d₁, ph₁⟩, hc, hr⟩ := Option.bind_eq_some.mp hr
      exact soloCheckout_reachable fuel (hs.step (step_sound (step_call_last_of hc))) hr

theorem seqStep_reachable {cfg : KsConfig} {s s' : Sys} {op : SeqOp} (hs : Reachable cfg s)
    (h : s.seqStep op = some s') : Reachable cfg s' := by
  cases op with
  | checkout h₀ ok =>
    obtain ⟨⟨p, d, ph⟩, hr, rfl⟩ := Option.map_eq_some'.mp h
    exact soloCheckout_reachable 7 (hs.step (.spawn s)) hr
  | checkin i =>
    simp only [seqStep] at h
    split at h
    · exact hs.step (step_sound h)
    · cases h
  | drop c => exact hs.step (step_sound (show s.step (.drop c) = some s' from h))

theorem seqRun_reachable {cfg : KsConfig} {s s' : Sys} {ops : List SeqOp}
    (hs : Reachable cfg s) (h : s.seqRun ops = some s') : Reachable cfg s' := by
  induction ops generalizing s with
  | nil => cases h; exact hs
  | cons op ops ih =>
    obtain ⟨s₁, h₁, h₂⟩ := Option.bind_eq_some.mp h
    exact ih (seqStep_reachable hs h₁) h₂

/-! ## 3. What a sequential `checkout` does

One equation per path through `checkout`, run alone from any state. -/

section Checkout

variable {s : Sys} {h : Host} {ok : Bool} (hh : h ∈ s.pool.cfg.hosts)
include hh

/-- The established queue of `h` holds an open connection first: `checkout` hands it out. -/
theorem seqStep_checkout_reuse {c : Nat} {est : Host → Option (Chan (Option Nat))}
    (he : recvAt? s.pool.established h = some (some c, est)) (hc : s.driver.closed c = false) :
    s.seqStep (.checkout h ok) =
      some ⟨{ s.pool with established := est }, s.driver, s.calls ++ [.out h (some c)]⟩ := by
  simp only [seqStep, soloCheckout_succ, soloCheckout_out, Phase.idle, callStep, checkoutStep,
    seqChoice, hh, Option.bind_none, Option.some_bind, he, hc, Bool.false_eq_true, ↓reduceIte,
    Option.map_some']

/-- No connection is queued and a token is: `checkout` takes it and dials. -/
theorem seqStep_checkout_dial {un : Host → Option (Chan (Option Nat))}
    (he : recvAt? s.pool.established h = none)
    (hu : recvAt? s.pool.unestablished h = some (none, un)) :
    s.seqStep (.checkout h true) =
      some ⟨{ s.pool with
          unestablished := un, activeConns := s.pool.activeConns ++ [s.driver.next] },
        s.driver.dial h, s.calls ++ [.out h (some s.driver.next)]⟩ := by
  simp only [seqStep, soloCheckout_succ, soloCheckout_out, Phase.idle, callStep, checkoutStep,
    seqChoice, hh, Pool.connect, Option.bind_none, Option.some_bind, he, Option.isSome_none,
    Bool.false_eq_true, ↓reduceIte, hu, Option.isSome_some, Option.map_some']

/-- The dial fails: `checkout` puts the token back and returns a nil handle. -/
theorem seqStep_checkout_failed {un un' : Host → Option (Chan (Option Nat))}
    (he : recvAt? s.pool.established h = none)
    (hu : recvAt? s.pool.unestablished h = some (none, un)) (hs : sendAt? un h none = some un') :
    s.seqStep (.checkout h false) =
      some ⟨{ s.pool with unestablished := un' }, s.driver, s.calls ++ [.out h none]⟩ := by
  simp only [seqStep, soloCheckout_succ, soloCheckout_out, Phase.idle, callStep, checkoutStep,
    seqChoice, hh, Pool.connect, Option.bind_none, Option.some_bind, he, Option.isSome_none,
    Bool.false_eq_true, ↓reduceIte, hu, Option.isSome_some, Option.map_some', hs]

/-- Both queues are empty: the timer fires, and `checkout` returns a nil handle. -/
theorem seqStep_checkout_timeout (he : recvAt? s.pool.established h = none)
    (hu : recvAt? s.pool.unestablished h = none) :
    s.seqStep (.checkout h ok) = some ⟨s.pool, s.driver, s.calls ++ [.out h none]⟩ := by
  simp only [seqStep, soloCheckout_succ, soloCheckout_out, Phase.idle, callStep, checkoutStep,
    seqChoice, hh, Option.bind_none, Option.some_bind, he, Option.isSome_none, Bool.false_eq_true,
    ↓reduceIte, hu, Option.map_some']

end Checkout

/-- `hp.Get()` answers only hosts of the config, so a `checkout` that returns was for one. -/
theorem seqStep_checkout_mem {s s' : Sys} {h : Host} {ok : Bool}
    (h1 : s.seqStep (.checkout h ok) = some s') : h ∈ s.pool.cfg.hosts := by
  by_contra hh
  simp [seqStep, soloCheckout_succ, Phase.idle, callStep, checkoutStep, seqChoice, hh] at h1

/-! ## 4. Between calls -/

theorem outstanding_le_peak (s : Sys) (h : Host) (ops : List SeqOp) :
    s.outstanding h ≤ s.peak h ops := by
  cases ops with
  | nil => exact le_rfl
  | cons op ops => exact le_max_left _ _

/-- From `s` to `s'` the connections dialed to a host stay as they were, or grow to the
    number of handles for it outstanding in `s'`. -/
def dialsOnDemand (s s' : Sys) : Prop :=
  ∀ h, s'.driver.dialedTo h = s.driver.dialedTo h ∨
    (s.driver.dialedTo h < s'.driver.dialedTo h ∧ s'.driver.dialedTo h = s'.outstanding h)

/-- Between the calls of a sequential run in which no connection has closed. Every call
    holds its handle or has checked in, and no connection is closed. The established queues
    hold only connections and the unestablished ones only nil tokens. The connections
    dialed to a host are those on its established queue and those handed out for it. -/
structure SeqOk (s : Sys) : Prop where
  idle : ∀ ph ∈ s.calls, ph.idle = true
  allOpen : ∀ c, s.driver.closed c = false
  noNil : ∀ h, countAt s.pool.established h none = 0
  onlyNil : ∀ h c, countAt s.pool.unestablished h (some c) = 0
  dialed : ∀ h, s.driver.dialedTo h = lenAt s.pool.established h + s.outstanding h

theorem seqOk_init (cfg : KsConfig) : SeqOk (init cfg) := by
  refine ⟨by simp [init], fun _ => rfl, fun h => ?_, fun h c => ?_, fun h => ?_⟩ <;>
    by_cases hh : h ∈ cfg.hosts <;>
    simp [init, countAt, lenAt, outstanding, Driver.dialedTo, Driver.empty, Pool.init_established,
      Pool.init_unestablished, hh, Chan.make, Chan.full, List.count_replicate]

theorem outstanding_append (s : Sys) (p : Pool) (d : Driver) (ph : Phase) (h : Host) :
    (⟨p, d, s.calls ++ [ph]⟩ : Sys).outstanding h =
      s.outstanding h + if ph.handleFor h then 1 else 0 := by
  simp [outstanding, List.countP_append, List.countP_cons]

section Facts

variable {s : Sys} (hs : SeqOk s)
include hs

theorem SeqOk.queued_conn {h : Host} {c : Option Nat} {est : Host → Option (Chan (Option Nat))}
    (he : recvAt? s.pool.established h = some (c, est)) : ∃ c', c = some c' := by
  cases c with
  | none => have := recvAt?_countAt_pos he; rw [hs.noNil h] at this; omega
  | some c' => exact ⟨c', rfl⟩

theorem SeqOk.token_nil {h : Host} {t : Option Nat} {un : Host → Option (Chan (Option Nat))}
    (hu : recvAt? s.pool.unestablished h = some (t, un)) : t = none := by
  cases t with
  | none => rfl
  | some c => have := recvAt?_countAt_pos hu; rw [hs.onlyNil h c] at this; omega

theorem SeqOk.outstanding_le (h : Host) : s.outstanding h ≤ s.driver.dialedTo h := by
  rw [hs.dialed h]; omega

theorem SeqOk.idle_append {ph : Phase} (hph : ph.idle = true) :
    ∀ q ∈ s.calls ++ [ph], q.idle = true := by
  simp only [List.mem_append, List.mem_singleton]
  rintro q (hq | rfl)
  exacts [hs.idle q hq, hph]

/-- **A sequential `checkout`, between calls.** It returns, by one of three paths: it reuses
    the oldest connection queued for `h`; or, with none queued, it takes a nil token and
    dials, putting the token back if the dial fails; or, with neither queue holding
    anything, it times out with a nil handle. -/
theorem SeqOk.checkout_spec {h : Host} (hh : h ∈ s.pool.cfg.hosts) (ok : Bool) :
    ∃ s', s.seqStep (.checkout h ok) = some s' ∧
      ((∃ c est, recvAt? s.pool.established h = some (some c, est) ∧
          s' = ⟨{ s.pool with established := est }, s.driver, s.calls ++ [.out h (some c)]⟩) ∨
        (recvAt? s.pool.established h = none ∧
          ∃ un, recvAt? s.pool.unestablished h = some (none, un) ∧
          ((ok = true ∧ s' = ⟨{ s.pool with
                unestablished := un, activeConns := s.pool.activeConns ++ [s.driver.next] },
              s.driver.dial h, s.calls ++ [.out h (some s.driver.next)]⟩) ∨
            (ok = false ∧ ∃ un', sendAt? un h none = some un' ∧
              s' = ⟨{ s.pool with unestablished := un' }, s.driver,
                s.calls ++ [.out h none]⟩))) ∨
        (recvAt? s.pool.established h = none ∧ recvAt? s.pool.unestablished h = none ∧
          s' = ⟨s.pool, s.driver, s.calls ++ [.out h none]⟩)) := by
  rcases he : recvAt? s.pool.established h with _ | ⟨c, est⟩
  · rcases hu : recvAt? s.pool.unestablished h with _ | ⟨t, un⟩
    · exact ⟨_, seqStep_checkout_timeout hh he hu, .inr (.inr ⟨rfl, rfl, rfl⟩)⟩
    · obtain rfl := hs.token_nil hu
      cases ok
      · obtain ⟨un', hb⟩ := Option.isSome_iff_exists.mp (sendAt?_isSome_of_recvAt? hu none)
        exact ⟨_, seqStep_checkout_failed hh he hu hb,
          .inr (.inl ⟨rfl, un, rfl, .inr ⟨rfl, un', hb, rfl⟩⟩)⟩
      · exact ⟨_, seqStep_checkout_dial hh he hu,
          .inr (.inl ⟨rfl, un, rfl, .inl ⟨rfl, rfl⟩⟩)⟩
  · obtain ⟨c, rfl⟩ := hs.queued_conn he
    exact ⟨_, seqStep_checkout_reuse hh he (hs.allOpen c), .inl ⟨c, est, rfl, rfl⟩⟩

/-- Reusing the queued connection `c`: it moves from the queue to the new handle. -/
theorem SeqOk.reuse {h : Host} {c : Nat} {est : Host → Option (Chan (Option Nat))}
    (he : recvAt? s.pool.established h = some (some c, est)) :
    SeqOk ⟨{ s.pool with established := est }, s.driver, s.calls ++ [.out h (some c)]⟩ ∧
      dialsOnDemand s
        ⟨{ s.pool with established := est }, s.driver, s.calls ++ [.out h (some c)]⟩ := by
  refine ⟨⟨hs.idle_append rfl, hs.allOpen, fun h' => ?_, hs.onlyNil, fun h' => ?_⟩,
    fun _ => .inl rfl⟩
  · simpa only [reduceCtorEq, and_false, if_false, Nat.add_zero, hs.noNil h'] using
      recvAt?_countAt he h' none
  · have hl := recvAt?_lenAt he h'
    have hd := hs.dialed h'
    rw [outstanding_append]
    by_cases e : h' = h <;> simp only [Phase.handleFor, e, beq_self_eq_true, if_true, if_false,
      beq_iff_eq] at hl hd ⊢ <;> omega

/-- Dialing on a nil token: the token becomes the new connection, handed out. The queue of
    `h` was empty, so the connections dialed to `h` are now exactly those handed out. -/
theorem SeqOk.dial {h : Host} {un : Host → Option (Chan (Option Nat))}
    (he : recvAt? s.pool.established h = none)
    (hu : recvAt? s.pool.unestablished h = some (none, un)) :
    let s' : Sys := ⟨{ s.pool with
      unestablished := un, activeConns := s.pool.activeConns ++ [s.driver.next] },
      s.driver.dial h, s.calls ++ [.out h (some s.driver.next)]⟩
    SeqOk s' ∧ dialsOnDemand s s' := by
  intro s'
  have he0 := lenAt_eq_zero_of_recvAt?_none he
  refine ⟨⟨hs.idle_append rfl, fun c => ?_, hs.noNil, fun h' c => ?_, fun h' => ?_⟩,
    fun h' => ?_⟩
  · simp only [s', Driver.dial_closed, hs.allOpen, ite_self]
  · have := recvAt?_countAt hu h' (some c)
    simp only [hs.onlyNil h' c] at this
    exact Nat.eq_zero_of_add_eq_zero_right this
  all_goals
    have hd := hs.dialed h'
    simp only [s', Driver.dialedTo_dial, outstanding_append]
    by_cases e : h' = h
    · subst e; simp only [Phase.handleFor, beq_self_eq_true, if_true] at hd ⊢; omega
    · simp only [Phase.handleFor, beq_iff_eq, e, Ne.symm e, if_false] at hd ⊢; omega

theorem SeqOk.timeout (h : Host) :
    SeqOk ⟨s.pool, s.driver, s.calls ++ [.out h none]⟩ ∧
      dialsOnDemand s ⟨s.pool, s.driver, s.calls ++ [.out h none]⟩ := by
  refine ⟨⟨hs.idle_append rfl, hs.allOpen, hs.noNil, hs.onlyNil, fun h' => ?_⟩,
    fun _ => .inl rfl⟩
  simpa [outstanding_append, Phase.handleFor] using hs.dialed h'

/-- A `checkin` puts a non-nil handle's connection back on its host's queue. -/
theorem SeqOk.checkin {i : Nat} {s' : Sys} (h1 : s.seqStep (.checkin i) = some s') :
    SeqOk s' ∧ dialsOnDemand s s' := by
  simp only [seqStep] at h1
  split at h1
  · rename_i h c hi
    have hidle : ∀ q ∈ s.calls.set i .done, q.idle = true := fun q hq =>
      (List.mem_or_eq_of_mem_set hq).elim (hs.idle q) fun e => e ▸ rfl
    have hc := fun h' => countP_set_add (Phase.handleFor h') (b := .done) hi
    simp only [step, hi, callStep, Pool.checkin] at h1
    rcases c with _ | c
    · obtain rfl := Option.some.inj h1
      refine ⟨⟨hidle, hs.allOpen, hs.noNil, hs.onlyNil, fun h' => ?_⟩, fun _ => .inl rfl⟩
      have := hc h'
      simp only [Phase.handleFor, Bool.false_eq_true, if_false] at this
      simp only [outstanding, hs.dialed h']
      omega
    · simp only [Option.map_map] at h1
      obtain ⟨est, hse, rfl⟩ := Option.map_eq_some'.mp h1
      refine ⟨⟨hidle, hs.allOpen, fun h' => ?_, hs.onlyNil, fun h' => ?_⟩,
        fun _ => .inl rfl⟩
      · simpa only [reduceCtorEq, and_false, if_false, Nat.add_zero, hs.noNil h'] using
          sendAt?_countAt hse h' none
      · have hl := sendAt?_lenAt hse h'
        have hd := hs.dialed h'
        have := hc h'
        simp only [outstanding, Function.comp] at hd ⊢
        by_cases e : h' = h <;> simp only [Phase.handleFor, e, beq_self_eq_true, beq_iff_eq,
          if_true, if_false, Bool.false_eq_true] at hl this hd ⊢ <;> omega
  · cases h1

/-- **One healthy operation**, between calls: the invariant holds after it, and the
    connections dialed to a host stay as they were or grow to the handles outstanding. -/
theorem SeqOk.step {op : SeqOp} {s' : Sys} (hop : op.healthy = true)
    (h1 : s.seqStep op = some s') : SeqOk s' ∧ dialsOnDemand s s' := by
  cases op with
  | checkout h ok =>
    obtain ⟨s₁, h₂, hpath⟩ := hs.checkout_spec (seqStep_checkout_mem h1) ok
    obtain rfl : s' = s₁ := Option.some.inj (h1.symm.trans h₂)
    rcases hpath with
      ⟨c, est, he, rfl⟩ | ⟨he, un, hu, ⟨-, rfl⟩ | ⟨rfl, -⟩⟩ | ⟨-, -, rfl⟩
    · exact hs.reuse he
    · exact hs.dial he hu
    · cases hop
    · exact hs.timeout h
  | checkin i => exact hs.checkin h1
  | drop c => cases hop

end Facts

/-- **A healthy run.** From a state between calls, a run with every `Connect` succeeding
    and no connection closing ends between calls, with as many connections dialed to each
    host as it had, or as the most handles ever outstanding for it along the run. -/
theorem SeqOk.run {s s' : Sys} {ops : List SeqOp} (hs : SeqOk s)
    (hops : ∀ op ∈ ops, op.healthy = true) (hrun : s.seqRun ops = some s') :
    SeqOk s' ∧ ∀ h, s'.driver.dialedTo h = max (s.driver.dialedTo h) (s.peak h ops) := by
  induction ops generalizing s with
  | nil =>
    cases hrun
    exact ⟨hs, fun h => (max_eq_left (hs.outstanding_le h)).symm⟩
  | cons op ops ih =>
    obtain ⟨s₁, h₁, h₂⟩ := Option.bind_eq_some.mp hrun
    obtain ⟨hs₁, hgrow⟩ := hs.step (hops op (List.mem_cons_self _ _)) h₁
    obtain ⟨hs', hd⟩ := ih hs₁ (fun o ho => hops o (List.mem_cons_of_mem _ ho)) h₂
    refine ⟨hs', fun h => ?_⟩
    have hpeak : s.peak h (op :: ops) = max (s.outstanding h) (s₁.peak h ops) := by
      simp [peak, h₁]
    have h₁le := hs.outstanding_le h
    have hp₁ := outstanding_le_peak s₁ h ops
    rw [hd h, hpeak]
    rcases hgrow h with e | ⟨hlt, e⟩ <;> omega

/-! ## 5. Maximal reuse -/

/-- Between calls, the callers holding a slot of `h` are those holding a non-nil handle for
    it. -/
theorem SeqOk.inflight_eq {s : Sys} (hs : SeqOk s) (h : Host) : s.inflight h = s.outstanding h :=
  List.countP_congr fun ph hph => by
    have := hs.idle ph hph
    rcases ph with _ | _ | _ | _ | _ | _ | ⟨h', _ | c⟩ | _ <;>
      simp [Phase.idle, Phase.holds, Phase.handleFor] at this ⊢

/-- Two calls check out at once on the reuse test's pool (one host, two connections per
    host), both check in, and a third call checks out. -/
def twoAtOnce : List SeqOp :=
  [.checkout "host1" true, .checkout "host1" true, .checkin 0, .checkin 1,
   .checkout "host1" true]

/-- Where `twoAtOnce` ends. -/
def twoAtOnceState : Sys := ((init reuseCfg).seqRun twoAtOnce).getD (init reuseCfg)

/-- The third checkout reuses the first connection. -/
example : twoAtOnceState.calls = [.done, .done, .out "host1" (some 0)] := by
  decide

end Sys

end Gocassa
end ServiceLayer
