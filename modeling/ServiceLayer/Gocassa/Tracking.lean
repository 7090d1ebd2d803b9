import ServiceLayer.Gocassa.Pool

/-!
# What `Size()` counts

`Size()` is `len(activeConns)`, and `activeConns` is the list `Close()` walks: `connect`
appends every connection it dials, and only `Close()` empties it. Nothing takes a connection
out when it dies. When `checkout` finds a queued connection closed it dials a replacement to
the same slot, and the dead connection stays in the list.

So `Size()` is exactly the number of connections dialed since the last `Close()`, or since
`init()` when there was none (`size_eq_dialed_since_close`). `activeConns` holds exactly
those connections, in dial order, whether they are still open or not. Every connection
dialed before that `Close()` is closed: `Close()` closes the ones it walks, and every other
one was closed already, because the list holds every open connection the pool dialed
(`Covers`). Nothing reopens a connection.

Two bounds fail. `Size()` is not the number of open connections, and it is not bounded by
`len(hosts) × NumConns`: `size_counts_dead_connections` replays a run on one host with one
slot where a connection dies and is redialed. `Size()` is then `2`, one connection is open,
and the bound is `1`.
-/

set_option autoImplicit false

namespace ServiceLayer
namespace Gocassa

open Go

/-- A move either leaves the tracking list and the driver alone, or is a successful dial:
    the fresh connection is appended and the driver dials it. -/
theorem CallMove.tracking_cases {p p' : Pool} {d d' : Driver} {ph ph' : Phase}
    (hm : CallMove p d ph p' d' ph') :
    (p'.activeConns = p.activeConns ∧ d' = d) ∨
      ∃ h₀, p'.activeConns = p.activeConns ++ [d.next] ∧ d' = d.dial h₀ := by
  cases hm with
  | connected h₀ => exact .inr ⟨h₀, rfl, rfl⟩
  | _ => exact .inl ⟨rfl, rfl⟩

namespace Sys

/-- The connections the pool dialed that are still open. In the one-pool system every
    connection the driver knows was dialed by this pool. -/
def live (s : Sys) : List Nat := (List.range s.driver.next).filter fun c => !s.driver.closed c

/-- Every open connection the pool dialed is tracked. -/
def Covers (s : Sys) : Prop :=
  ∀ c < s.driver.next, s.driver.closed c = false → c ∈ s.pool.activeConns

/-- Right after `Close()` nothing is tracked, and every connection dialed so far is closed:
    the ones `Close()` walked, and, by `Covers`, all the others already were. -/
theorem Covers.close {s : Sys} (hs : Covers s) :
    (s.pool.close s.driver).1.activeConns = [] ∧
      ∀ c < (s.pool.close s.driver).2.next, (s.pool.close s.driver).2.closed c = true := by
  obtain ⟨hn, -, hcl⟩ := Driver.foldl_close s.pool.activeConns s.driver
  refine ⟨rfl, fun c hc => ?_⟩
  rw [Pool.close, hn] at hc
  rw [Pool.close, hcl, Bool.or_eq_true, decide_eq_true_eq]
  cases h : s.driver.closed c
  · exact .inr (hs c hc h)
  · exact .inl rfl

theorem Covers.step {s s' : Sys} (hs : Covers s) (hst : Step s s') : Covers s' := by
  cases hst with
  | spawn => exact hs
  | call _ hm =>
    rcases hm.tracking_cases with ⟨ha, rfl⟩ | ⟨h₀, ha, rfl⟩
    · intro c hc hcl
      rw [ha]
      exact hs c hc hcl
    · intro c hc hcl
      rw [ha, List.mem_append, List.mem_singleton]
      by_cases e : c = s.driver.next
      · exact .inr e
      · rw [Driver.dial_closed, if_neg e] at hcl
        exact .inl (hs c (by simp at hc; omega) hcl)
  | drop c₀ =>
    intro c hc hcl
    rw [Driver.close_closed, Bool.or_eq_false_iff] at hcl
    exact hs c hc hcl.1
  | close =>
    intro c hc hcl
    rw [hs.close.2 c hc] at hcl
    cases hcl

theorem Reachable.covers {cfg : KsConfig} {s : Sys} (h : Reachable cfg s) : Covers s := by
  induction h with
  | init => intro c hc; exact absurd hc (Nat.not_lt_zero c)
  | step _ hst ih => exact ih.step hst

/-! ## `Size()` since the last `Close()` -/

/-- From `s₁` to `s` the tracking list only grew by the connections dialed, in dial order,
    and no connection dialed before `s₁` was reopened. -/
structure SinceClose (s₁ s : Sys) : Prop where
  conns : s.pool.activeConns =
    s₁.pool.activeConns ++ List.range' s₁.driver.next (s.driver.next - s₁.driver.next)
  next_le : s₁.driver.next ≤ s.driver.next
  closed : ∀ c < s₁.driver.next, s₁.driver.closed c = true → s.driver.closed c = true

theorem SinceClose.refl (s : Sys) : SinceClose s s := ⟨by simp, le_rfl, fun _ _ h => h⟩

/-- Every step but `Close()` keeps `SinceClose`: a successful dial appends the next
    connection, and nothing else touches the list or reopens a connection. -/
theorem SinceClose.step {s₁ s s' : Sys} {a : Act} (hs : SinceClose s₁ s) (ha : a ≠ .close)
    (h : s.step a = some s') : SinceClose s₁ s' := by
  cases a with
  | spawn => cases h; exact ⟨hs.conns, hs.next_le, hs.closed⟩
  | drop c₀ =>
    cases h
    refine ⟨hs.conns, hs.next_le, fun c hc hcl => ?_⟩
    rw [Driver.close_closed, hs.closed c hc hcl, Bool.true_or]
  | close => exact absurd rfl ha
  | call i o =>
    simp only [Sys.step] at h
    split at h
    · obtain ⟨⟨p, d, ph'⟩, hst, he⟩ := Option.map_eq_some'.mp h
      cases he
      have hle := hs.next_le
      rcases (callStep_move hst).tracking_cases with ⟨hc, rfl⟩ | ⟨h₀, hc, rfl⟩
      · exact ⟨hc.trans hs.conns, hle, hs.closed⟩
      · refine ⟨?_, by simp only [Driver.dial_next]; omega, fun c hc' hcl => ?_⟩
        · rw [hc, hs.conns, List.append_assoc, Driver.dial_next, Nat.sub_add_comm hle,
            List.range'_1_concat, Nat.add_sub_cancel' hle]
        · rw [Driver.dial_closed, if_neg (by omega), hs.closed c hc' hcl]
    · cases h

theorem SinceClose.run {s₁ : Sys} :
    ∀ {s s' : Sys} {as : List Act}, SinceClose s₁ s → Act.close ∉ as → s.run as = some s' →
      SinceClose s₁ s'
  | _, _, [], hs, _, h => by cases h; exact hs
  | s, _, a :: as, hs, ha, h => by
    rw [List.mem_cons, not_or] at ha
    obtain ⟨s₂, h₂, h₃⟩ := Option.bind_eq_some.mp h
    exact SinceClose.run (hs.step (fun e => ha.1 e.symm) h₂) ha.2 h₃

/-- Right after the last `Close()` of a run from `init()`, or at `init()`, nothing is
    tracked and every connection dialed so far is closed. -/
theorem run_closed {cfg : KsConfig} {pre : List Act} {s₁ : Sys}
    (hpre : pre = [] ∨ ∃ pre₀, pre = pre₀ ++ [.close]) (h₁ : (init cfg).run pre = some s₁) :
    s₁.pool.activeConns = [] ∧ ∀ c < s₁.driver.next, s₁.driver.closed c = true := by
  rcases hpre with rfl | ⟨pre₀, rfl⟩
  · cases h₁; exact ⟨rfl, fun c hc => absurd hc (Nat.not_lt_zero c)⟩
  · rw [run_append] at h₁
    obtain ⟨s₀, h₀, hc⟩ := Option.bind_eq_some.mp h₁
    cases hc
    exact (run_reachable .init h₀).covers.close

/-- **`Size()` is the number of connections dialed since the last `Close()`.** Split a run
    from `init()` at its last `Close()` (`pre` ends with it, or is empty when there is none;
    `post` has none). After the run, `activeConns` is exactly the connections dialed during
    `post`, in dial order, open or closed; `Size()` is their number; and every connection
    dialed before is closed. -/
theorem size_eq_dialed_since_close {cfg : KsConfig} {pre post : List Act} {s₁ s : Sys}
    (hpre : pre = [] ∨ ∃ pre₀, pre = pre₀ ++ [.close]) (hpost : Act.close ∉ post)
    (h₁ : (init cfg).run pre = some s₁) (h : s₁.run post = some s) :
    s.pool.activeConns = List.range' s₁.driver.next (s.driver.next - s₁.driver.next) ∧
      s.pool.size = s.driver.next - s₁.driver.next ∧
      ∀ c < s₁.driver.next, s.driver.closed c = true := by
  obtain ⟨hnil, hcl⟩ := run_closed hpre h₁
  have hs := (SinceClose.refl s₁).run hpost h
  have hconns := hs.conns
  rw [hnil, List.nil_append] at hconns
  exact ⟨hconns, by rw [Pool.size, hconns, List.length_range'],
    fun c hc => hs.closed c hc (hcl c hc)⟩

/-! ## A dead connection is still counted -/

/-- One host, one slot. -/
def oneSlot : KsConfig := ⟨"dummyks", ["host1"], 1⟩

/-- A call dials the slot and checks the connection in; the connection dies; a second call
    takes it off the established queue, finds it closed, and dials a replacement. -/
def redialRun : List Act :=
  [.spawn, .call 0 (.host "host1"), .call 0 .next, .call 0 .unestablished, .call 0 .next,
   .call 0 (.dial true), .call 0 .next, .drop 0,
   .spawn, .call 1 (.host "host1"), .call 1 .next, .call 1 .next, .call 1 (.dial true)]

theorem redialRun_sizes :
    ((init oneSlot).run redialRun).map (fun s => (s.pool.size, s.live.length)) = some (2, 1) := by
  decide

/-- `Size()` is not the number of open connections the pool dialed, and exceeds
    `len(hosts) × NumConns`. -/
theorem size_counts_dead_connections :
    ¬ ∀ s, Reachable oneSlot s →
      s.pool.size = s.live.length ∧ s.pool.size ≤ oneSlot.hosts.length * oneSlot.numConns := by
  intro h
  have hv := redialRun_sizes
  cases hr : (init oneSlot).run redialRun with
  | none => simp [hr] at hv
  | some s =>
    simp only [hr, Option.map_some', Option.some.injEq, Prod.mk.injEq] at hv
    have := h s (run_reachable .init hr)
    simp [hv.1, hv.2, oneSlot] at this

/-- `Close()` after `redialRun`. -/
def redialClosed : Sys := ((init oneSlot).run (redialRun ++ [.close])).getD (init oneSlot)

/-- After `Close()`, the second call checks its connection in, and a third call takes it,
    finds it closed by `Close()`, and dials a replacement. -/
def redialAfterClose : List Act :=
  [.call 1 .next, .spawn, .call 2 (.host "host1"), .call 2 .next, .call 2 .next,
   .call 2 (.dial true)]

/-- Where `redialAfterClose` ends. -/
def redialReopened : Sys := (redialClosed.run redialAfterClose).getD redialClosed

theorem size_eq_dialed_since_close_redial :
    redialReopened.pool.activeConns = [2] ∧ redialReopened.pool.size = 1 ∧
      ∀ c < 2, redialReopened.driver.closed c = true := by
  obtain ⟨hconns, hsize, hcl⟩ := @size_eq_dialed_since_close oneSlot (redialRun ++ [Act.close])
    redialAfterClose redialClosed redialReopened (.inr ⟨redialRun, rfl⟩) (by decide) rfl rfl
  have hn : redialClosed.driver.next = 2 := by decide
  exact ⟨hconns.trans (by decide), hsize.trans (by decide), fun c hc => hcl c (hn ▸ hc)⟩

end Sys

end Gocassa
end ServiceLayer
