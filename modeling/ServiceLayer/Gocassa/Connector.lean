import ServiceLayer.Go.Basic

/-!
# `gocqlConnector`: one connection per keyspace

`gocqlConnector(ks)` hands out the `gocassa.Connection` of a keyspace from the package map
`ksConnections`, which `ksConnectionsMtx` guards. It looks the name up under the read lock.
On a miss it takes the write lock and looks again (the guard against the race). Only if the
name is still missing does it build an executor and a connection and store it. The deferred
`Unlock` runs when it returns.

Each call is a program point (`ConnPc`) and takes one step per lock operation, map read,
`NewConnection` and map write (`gocqlConnectorStep`, read as the relation `ConnMove`). A map
read and the unlock and `return` after it are one step, since no other goroutine can touch
the map between them. Connections are numbered in the order `NewConnection` returns them, and
`made` records (ghost) the keyspace of the executor each one wraps.

The invariant (`ConnOk`): the write lock is held exactly by the call past the second read,
if any. No call is about to build or store a connection for a name the map already holds.
Every call that returned got the map's entry for its name. Every entry, and every
connection about to be stored, wraps an executor for its name. So a step never changes an
entry (`ConnOk.conns_move`), and `connector_unique` follows: the calls that returned
for one name all returned the same connection, and a run never replaces an entry.
-/

set_option autoImplicit false

namespace ServiceLayer
namespace Gocassa

open Go

/-! ## 1. One `gocqlConnector` call -/

/-- Where a `gocqlConnector(ks)` call is. -/
inductive ConnPc where
  /-- About to take `ksConnectionsMtx.RLock()`. -/
  | start (ks : String)
  /-- Holding the read lock, about to read `ksConnections[ks]` and release it. -/
  | reading (ks : String)
  /-- Missed; about to take `ksConnectionsMtx.Lock()`. -/
  | locking (ks : String)
  /-- Holding the lock, about to read `ksConnections[ks]` again. -/
  | checking (ks : String)
  /-- Holding the lock, about to call `gocassa.NewConnection(&gocqlExecutor{ks: ks})`. -/
  | creating (ks : String)
  /-- Holding the lock, about to store connection `c` as `ksConnections[ks]`. -/
  | storing (ks : String) (c : Nat)
  /-- Returned connection `c`; the deferred `Unlock` has run. -/
  | returned (ks : String) (c : Nat)
  deriving DecidableEq, Repr

namespace ConnPc

/-- Holding the write lock. -/
def holdsLock : ConnPc → Bool
  | .checking _ | .creating _ | .storing _ _ => true
  | _ => false

/-- About to build or store a connection for `ks`. -/
def pendingOn (ks : String) : ConnPc → Bool
  | .creating ks' | .storing ks' _ => ks' == ks
  | _ => false

theorem pendingOn_le_holdsLock (ks : String) (pc : ConnPc) (h : pc.pendingOn ks = true) :
    pc.holdsLock = true := by
  cases pc <;> simp_all [pendingOn, holdsLock]

end ConnPc

/-- `ksConnections` and `ksConnectionsMtx`, and (ghost) the keyspace of the executor each
    connection made so far wraps. -/
structure Registry where
  conns : String → Option Nat
  made : List String
  readers : Nat
  writer : Bool

/-- One step of a `gocqlConnector` call; `none` when it blocks or has returned. -/
def gocqlConnectorStep (r : Registry) : ConnPc → Option (Registry × ConnPc)
  | .start ks => if r.writer then none else some ({ r with readers := r.readers + 1 }, .reading ks)
  | .reading ks =>
    some ({ r with readers := r.readers - 1 },
      match r.conns ks with
      | some c => .returned ks c
      | none => .locking ks)
  | .locking ks =>
    if r.writer ∨ 0 < r.readers then none else some ({ r with writer := true }, .checking ks)
  | .checking ks =>
    match r.conns ks with
    | some c => some ({ r with writer := false }, .returned ks c)
    | none => some (r, .creating ks)
  | .creating ks => some ({ r with made := r.made ++ [ks] }, .storing ks r.made.length)
  | .storing ks c =>
    some ({ r with conns := Function.update r.conns ks (some c), writer := false }, .returned ks c)
  | .returned _ _ => none

/-- `gocqlConnectorStep` as a relation, one constructor per transition. -/
inductive ConnMove : Registry → ConnPc → Registry → ConnPc → Prop
  | rlock {r : Registry} {ks : String} (hw : r.writer = false) :
      ConnMove r (.start ks) { r with readers := r.readers + 1 } (.reading ks)
  | hit {r : Registry} {ks : String} {c : Nat} (hc : r.conns ks = some c) :
      ConnMove r (.reading ks) { r with readers := r.readers - 1 } (.returned ks c)
  | miss {r : Registry} {ks : String} (hc : r.conns ks = none) :
      ConnMove r (.reading ks) { r with readers := r.readers - 1 } (.locking ks)
  | lock {r : Registry} {ks : String} (hw : r.writer = false) (hr : r.readers = 0) :
      ConnMove r (.locking ks) { r with writer := true } (.checking ks)
  | recheckHit {r : Registry} {ks : String} {c : Nat} (hc : r.conns ks = some c) :
      ConnMove r (.checking ks) { r with writer := false } (.returned ks c)
  | recheckMiss {r : Registry} {ks : String} (hc : r.conns ks = none) :
      ConnMove r (.checking ks) r (.creating ks)
  | create {r : Registry} {ks : String} :
      ConnMove r (.creating ks) { r with made := r.made ++ [ks] } (.storing ks r.made.length)
  | store {r : Registry} {ks : String} {c : Nat} :
      ConnMove r (.storing ks c)
        { r with conns := Function.update r.conns ks (some c), writer := false } (.returned ks c)

theorem gocqlConnectorStep_move {r r' : Registry} {pc pc' : ConnPc}
    (h : gocqlConnectorStep r pc = some (r', pc')) : ConnMove r pc r' pc' := by
  cases pc <;> simp only [gocqlConnectorStep, reduceCtorEq] at h
  case start ks =>
    split_ifs at h with hw; cases h; exact .rlock (by simpa using hw)
  case reading ks =>
    cases hc : r.conns ks <;> simp only [hc, Option.some.injEq, Prod.mk.injEq] at h <;>
      obtain ⟨rfl, rfl⟩ := h
    exacts [.miss hc, .hit hc]
  case locking ks =>
    split_ifs at h with hw; cases h
    simp only [not_or, Bool.not_eq_true, not_lt, Nat.le_zero] at hw
    exact .lock hw.1 hw.2
  case checking ks =>
    cases hc : r.conns ks <;> simp only [hc, Option.some.injEq, Prod.mk.injEq] at h <;>
      obtain ⟨rfl, rfl⟩ := h
    exacts [.recheckMiss hc, .recheckHit hc]
  case creating ks => cases h; exact .create
  case storing ks c => cases h; exact .store

/-- A move keeps every connection made so far. -/
theorem ConnMove.made_kept {r r' : Registry} {pc pc' : ConnPc} (hm : ConnMove r pc r' pc')
    {c : Nat} {ks : String} (h : r.made[c]? = some ks) : r'.made[c]? = some ks := by
  cases hm with
  | create => exact (List.getElem?_append_left (List.getElem?_eq_some_iff.mp h).1).trans h
  | _ => exact h

/-! ## 2. Any number of concurrent calls -/

/-- The registry and the calls made so far. -/
structure ConnSys where
  reg : Registry
  calls : List ConnPc

inductive ConnAct where
  /-- A new call `gocqlConnector(ks)`. -/
  | spawn (ks : String)
  /-- Call `i` takes its next step. -/
  | call (i : Nat)
  deriving DecidableEq, Repr

namespace ConnSys

/-- The package's state at start-up: an empty map, the mutex free. -/
def init : ConnSys := ⟨⟨fun _ => none, [], 0, false⟩, []⟩

def step (s : ConnSys) : ConnAct → Option ConnSys
  | .spawn ks => some { s with calls := s.calls ++ [.start ks] }
  | .call i =>
    s.calls[i]?.bind fun pc => (gocqlConnectorStep s.reg pc).map fun r => ⟨r.1, s.calls.set i r.2⟩

inductive Step : ConnSys → ConnSys → Prop
  | spawn (s : ConnSys) (ks : String) : Step s { s with calls := s.calls ++ [.start ks] }
  | call {s : ConnSys} {i : Nat} {pc pc' : ConnPc} {r' : Registry}
      (hi : s.calls[i]? = some pc) (hm : ConnMove s.reg pc r' pc') : Step s ⟨r', s.calls.set i pc'⟩

theorem step_sound {s s' : ConnSys} {a : ConnAct} (h : s.step a = some s') : Step s s' := by
  cases a with
  | spawn ks => cases h; exact .spawn s ks
  | call i =>
    obtain ⟨pc, hi, h⟩ := Option.bind_eq_some.mp h
    obtain ⟨⟨r', pc'⟩, hr, rfl⟩ := Option.map_eq_some'.mp h
    exact .call hi (gocqlConnectorStep_move hr)

/-- The states reachable from start-up under any schedule. -/
inductive Reachable : ConnSys → Prop
  | init : Reachable init
  | step {s s' : ConnSys} : Reachable s → Step s s' → Reachable s'

def run : ConnSys → List ConnAct → Option ConnSys
  | s, [] => some s
  | s, a :: as => (s.step a).bind fun s' => run s' as

/-! ## 3. The invariant -/

/-- The write lock is held exactly by the call past the second read, if any; no call is
    about to build or store a connection for a name the map holds; every call that returned
    got the map's entry; and every entry, and every connection about to be stored, wraps an
    executor for its name. -/
structure ConnOk (s : ConnSys) : Prop where
  lockHeld : s.calls.countP ConnPc.holdsLock = if s.reg.writer then 1 else 0
  pendingFresh : ∀ ks, (s.reg.conns ks).isSome → s.calls.countP (ConnPc.pendingOn ks) = 0
  returnedIn : ∀ ks c, ConnPc.returned ks c ∈ s.calls → s.reg.conns ks = some c
  entryMade : ∀ ks c, s.reg.conns ks = some c → s.reg.made[c]? = some ks
  storingMade : ∀ ks c, ConnPc.storing ks c ∈ s.calls → s.reg.made[c]? = some ks

theorem connOk_init : ConnOk init :=
  ⟨rfl, by simp [init], by simp [init], by simp [init], by simp [init]⟩

/-- The call about to store for `ks` is the only call pending on `ks`. -/
theorem ConnOk.pending_le_one {s : ConnSys} (hs : ConnOk s) (ks : String) :
    s.calls.countP (ConnPc.pendingOn ks) ≤ 1 :=
  calc s.calls.countP (ConnPc.pendingOn ks)
      ≤ s.calls.countP ConnPc.holdsLock :=
        List.countP_mono_left fun pc _ => ConnPc.pendingOn_le_holdsLock ks pc
    _ ≤ 1 := by rw [hs.lockHeld]; split <;> omega

/-- **A move never changes an entry of the map.** The only write stores for a name no entry
    holds. -/
theorem ConnOk.conns_move {s : ConnSys} {i : Nat} {pc pc' : ConnPc} {r' : Registry}
    (hs : ConnOk s) (hi : s.calls[i]? = some pc) (hm : ConnMove s.reg pc r' pc') {ks : String}
    {c : Nat} (hc : s.reg.conns ks = some c) : r'.conns ks = some c := by
  cases hm with
  | @store ks' c' =>
    by_cases e : ks = ks'
    · subst e
      have h0 := hs.pendingFresh ks (by simp [hc])
      have h1 : 0 < s.calls.countP (ConnPc.pendingOn ks) := List.countP_pos_iff.mpr
        ⟨_, List.mem_iff_getElem?.mpr ⟨_, hi⟩, by simp [ConnPc.pendingOn]⟩
      omega
    · exact (Function.update_noteq e _ _).trans hc
  | _ => exact hc

/-- What a call's move does to the lock count and the pending calls. -/
theorem ConnOk.counts_step {s : ConnSys} {i : Nat} {pc pc' : ConnPc} {r' : Registry}
    (hs : ConnOk s) (hi : s.calls[i]? = some pc) (hm : ConnMove s.reg pc r' pc') :
    (s.calls.set i pc').countP ConnPc.holdsLock = (if r'.writer then 1 else 0) ∧
      ∀ ks, (r'.conns ks).isSome → (s.calls.set i pc').countP (ConnPc.pendingOn ks) = 0 := by
  refine ⟨?_, fun ks hks => ?_⟩
  · have hL := countP_set_add ConnPc.holdsLock (b := pc') hi
    have hl := hs.lockHeld
    have hwb : (if s.reg.writer then 1 else 0) ≤ 1 := by cases s.reg.writer <;> simp
    cases hm with
    | lock hw _ =>
      simp only [hw, Bool.false_eq_true, if_false] at hl
      simp only [ConnPc.holdsLock, if_true, if_false, Bool.false_eq_true] at hL ⊢; omega
    | _ => simp only [ConnPc.holdsLock, if_true, if_false, Bool.false_eq_true] at hL ⊢; omega
  · have hP := countP_set_add (ConnPc.pendingOn ks) (b := pc') hi
    cases hm with
    | @store ks' c' =>
      by_cases e : ks' = ks
      · subst e
        have := hs.pending_le_one ks'
        simp only [ConnPc.pendingOn, beq_self_eq_true, if_true, Bool.false_eq_true, if_false] at hP
        omega
      · have := hs.pendingFresh ks (by simpa [Function.update_noteq (Ne.symm e)] using hks)
        simp only [ConnPc.pendingOn, beq_iff_eq, e, if_false, Bool.false_eq_true] at hP; omega
    | @recheckMiss ks' hc =>
      by_cases e : ks' = ks
      · subst e; rw [hc] at hks; cases hks
      · have := hs.pendingFresh ks hks
        simp only [ConnPc.pendingOn, beq_iff_eq, e, if_false, Bool.false_eq_true] at hP; omega
    | _ =>
      have := hs.pendingFresh ks hks
      simp only [ConnPc.pendingOn, if_false, Bool.false_eq_true] at hP; omega

/-- What a call's move does to the returned calls and the connections made. -/
theorem ConnOk.members_step {s : ConnSys} {i : Nat} {pc pc' : ConnPc} {r' : Registry}
    (hs : ConnOk s) (hi : s.calls[i]? = some pc) (hm : ConnMove s.reg pc r' pc') :
    (∀ ks c, ConnPc.returned ks c ∈ s.calls.set i pc' → r'.conns ks = some c) ∧
      (∀ ks c, r'.conns ks = some c → r'.made[c]? = some ks) ∧
      (∀ ks c, ConnPc.storing ks c ∈ s.calls.set i pc' → r'.made[c]? = some ks) := by
  have hpc : pc ∈ s.calls := List.mem_iff_getElem?.mpr ⟨i, hi⟩
  refine ⟨fun ks c hmem => ?_, fun ks c hc => ?_, fun ks c hmem => ?_⟩
  · rcases List.mem_or_eq_of_mem_set hmem with hmem | he
    · exact hs.conns_move hi hm (hs.returnedIn ks c hmem)
    · cases hm <;> cases he
      all_goals first | assumption | exact Function.update_same _ _ _
  · cases hm with
    | @store ks' c' =>
      by_cases e : ks = ks'
      · subst e
        have hc' : Function.update s.reg.conns ks (some c') ks = some c := hc
        rw [Function.update_same, Option.some.injEq] at hc'
        exact hc' ▸ hs.storingMade ks c' hpc
      · exact hs.entryMade ks c ((Function.update_noteq e _ _).symm.trans hc)
    | create => exact ConnMove.create.made_kept (hs.entryMade ks c hc)
    | _ => exact hs.entryMade ks c hc
  · rcases List.mem_or_eq_of_mem_set hmem with hmem | he
    · exact hm.made_kept (hs.storingMade ks c hmem)
    · cases hm <;> cases he
      exact List.getElem?_concat_length _ _

theorem ConnOk.step {s s' : ConnSys} (hs : ConnOk s) (hst : Step s s') : ConnOk s' := by
  cases hst with
  | spawn ks =>
    have hnew : ∀ pc ∈ s.calls ++ [ConnPc.start ks], pc ∈ s.calls ∨ pc = .start ks := by simp
    refine ⟨by simpa [ConnPc.holdsLock] using hs.lockHeld,
      fun ks' h => by simpa [ConnPc.pendingOn] using hs.pendingFresh ks' h,
      fun ks' c hmem => ?_, hs.entryMade, fun ks' c hmem => ?_⟩
    · rcases hnew _ hmem with hmem | he
      exacts [hs.returnedIn ks' c hmem, by cases he]
    · rcases hnew _ hmem with hmem | he
      exacts [hs.storingMade ks' c hmem, by cases he]
  | call hi hm =>
    obtain ⟨hl, hp⟩ := hs.counts_step hi hm
    obtain ⟨hr, he, hsm⟩ := hs.members_step hi hm
    exact ⟨hl, hp, hr, he, hsm⟩

theorem Reachable.connOk {s : ConnSys} (h : Reachable s) : ConnOk s := by
  induction h with
  | init => exact connOk_init
  | step _ hst ih => exact ih.step hst

/-- Over a run, from a reachable state, every entry of the map stays as it is. -/
theorem Reachable.run_conns_kept {s s' : ConnSys} {as : List ConnAct} (hs : Reachable s)
    (h : s.run as = some s') {ks : String} {c : Nat} (hc : s.reg.conns ks = some c) :
    s'.reg.conns ks = some c := by
  induction as generalizing s with
  | nil => cases h; exact hc
  | cons a as ih =>
    obtain ⟨s₁, h₁, h₂⟩ := Option.bind_eq_some.mp h
    have hst := step_sound h₁
    obtain ⟨hs₁, hc₁⟩ : Reachable s₁ ∧ s₁.reg.conns ks = some c := by
      refine ⟨hs.step hst, ?_⟩
      cases hst with
      | spawn => exact hc
      | call hi hm => exact hs.connOk.conns_move hi hm hc
    exact ih hs₁ h₂ hc₁

theorem run_reachable {s s' : ConnSys} {as : List ConnAct} (hs : Reachable s)
    (h : s.run as = some s') : Reachable s' := by
  induction as generalizing s with
  | nil => cases h; exact hs
  | cons a as ih =>
    obtain ⟨s₁, h₁, h₂⟩ := Option.bind_eq_some.mp h
    exact ih (hs.step (step_sound h₁)) h₂

/-! ## 4. One connection per keyspace -/

/-- **One connection per keyspace.** In every state reached under any interleaving of any
    number of `gocqlConnector` calls over any names: all calls that returned for one name
    returned the same connection, one that wraps an executor for that name; and from there
    on, whatever runs, no entry of `ksConnections` is replaced. -/
theorem connector_unique {s : ConnSys} (hs : Reachable s) :
    (∀ (ks : String) (c c' : Nat), ConnPc.returned ks c ∈ s.calls →
      ConnPc.returned ks c' ∈ s.calls → c = c') ∧
    (∀ (ks : String) (c : Nat), ConnPc.returned ks c ∈ s.calls → s.reg.made[c]? = some ks) ∧
    (∀ (as : List ConnAct) (s' : ConnSys) (ks : String) (c : Nat), s.run as = some s' →
      s.reg.conns ks = some c → s'.reg.conns ks = some c) := by
  have ok := hs.connOk
  exact ⟨fun ks c c' h h' =>
      Option.some.inj ((ok.returnedIn ks c h).symm.trans (ok.returnedIn ks c' h')),
    fun ks c h => ok.entryMade ks c (ok.returnedIn ks c h),
    fun _ _ _ _ hr hc => hs.run_conns_kept hr hc⟩

/-- Two first calls for one name race: both miss under the read lock and queue on the lock;
    the first builds and stores the connection, and the second finds it at the re-check. -/
def racingRun : List ConnAct :=
  [.spawn "dummyks", .spawn "dummyks", .call 0, .call 1, .call 0, .call 1, .call 0, .call 0,
   .call 0, .call 0, .call 1, .call 1]

/-- The registry after `racingRun`. -/
def raced : ConnSys := (init.run racingRun).getD init

example : raced.calls = [.returned "dummyks" 0, .returned "dummyks" 0] := by decide

theorem connector_unique_racing :
    Reachable raced ∧
      (∀ (ks : String) (c c' : Nat), ConnPc.returned ks c ∈ raced.calls →
        ConnPc.returned ks c' ∈ raced.calls → c = c') ∧
      (∀ (ks : String) (c : Nat), ConnPc.returned ks c ∈ raced.calls →
        raced.reg.made[c]? = some ks) ∧
      (∀ (as : List ConnAct) (s' : ConnSys) (ks : String) (c : Nat), raced.run as = some s' →
        raced.reg.conns ks = some c → s'.reg.conns ks = some c) :=
  have h := run_reachable .init (rfl : init.run racingRun = some raced)
  ⟨h, connector_unique h⟩

end ConnSys

end Gocassa
end ServiceLayer
