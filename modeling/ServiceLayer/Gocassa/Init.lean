import ServiceLayer.Gocassa.Executor
import ServiceLayer.Gocassa.Session

/-!
# `init()`: the double-checked lock

Both versions of `gocqlExecutor` build their state lazily. The first `Query` or `Execute`
calls `init()`, which reads `e.initialised` under the read lock of `initMtx`; if it is unset,
it takes the write lock, checks again, loads the config, calls `switchConfig`, starts the
watcher goroutine and sets `e.initialised`. The two versions differ only in `switchConfig`.
The pool-based one cannot fail. The session-based one fails when `CreateSession` does, and
then `init()` returns the error without starting a watcher.

So the model is generic in the executor: its state `α`, its `switchConfig` (`sw`, which also
says whether it succeeded), and what "installed" means (`installed`: `e.pool != nil`, or
`e.session != nil`). Each call is a program point (`InitPc`) and takes one step per lock
operation, read or call (`initStep`, read as the relation `InitMove`). `initMtx` is a
reader count and a writer flag. A read lock waits only for a writer that holds the lock,
not for one that is waiting, so the model allows more interleavings than Go's
`sync.RWMutex`, and every result covers Go's too. Once started, the watcher may run
`switchConfig` on any config with any outcome at any time (`InitAct.watch`). That covers
both watchers, which call nothing else that `init()` reads.

The invariant (`InitOk`) ties the lock to the callers that hold it, the flag to the callers
past the re-check, and the number of watchers started to the flag. From it
(`InitSys.initOnce`): at most one call is ever past the re-check, none is once the executor
is initialised, at most one watcher is ever started, and a call that returned `nil` finds
the executor initialised and its pool or session installed. `init_runs_once` instantiates
this for both executors.
-/

set_option autoImplicit false

namespace ServiceLayer
namespace Gocassa

open Go

/-! ## 1. One `init()` call -/

/-- Where an `init()` call is. -/
inductive InitPc where
  /-- About to take `e.initMtx.RLock()`. -/
  | start
  /-- Holding the read lock, about to read `e.initialised` and release it. -/
  | reading
  /-- About to take `e.initMtx.Lock()`. -/
  | locking
  /-- Holding the lock, about to re-check `e.initialised` (the guard against the race). -/
  | checking
  /-- Holding the lock, about to call `getKsConfig(e.ks)`. -/
  | loading
  /-- Holding the lock, about to call `e.switchConfig(cfg)`. -/
  | switching (cfg : KsConfig)
  /-- Holding the lock, about to run `go e.watchConfig()`. -/
  | starting
  /-- Holding the lock, about to set `e.initialised = true`. -/
  | marking
  /-- Returned, `nil` when `ok`; the deferred `Unlock` has run. -/
  | returned (ok : Bool)
  deriving DecidableEq, Repr

namespace InitPc

/-- Past the re-check: inside the block that builds the executor. -/
def pastCheck : InitPc → Bool
  | .loading | .switching _ | .starting | .marking => true
  | _ => false

/-- After a successful `switchConfig`. -/
def installing : InitPc → Bool
  | .starting | .marking => true
  | _ => false

end InitPc

/-- The fields `init()` reads and writes: the rest of the executor (`α`), the flag, the
    two halves of `initMtx`, and (ghost) how many watcher goroutines were started. -/
structure InitState (α : Type) where
  exec : α
  initialised : Bool
  readers : Nat
  writer : Bool
  watchers : Nat

/-- What the scheduler picks for a call's step: what `getKsConfig` returns (`none`: an
    error), whether `switchConfig` succeeds, or nothing. -/
inductive InitChoice where
  | next
  | load (r : Option KsConfig)
  | switch (ok : Bool)
  deriving DecidableEq, Repr

section Call

variable {α : Type} (sw : α → KsConfig → Bool → α × Bool)

/-- One step of an `init()` call; `none` when it blocks or the choice does not apply. -/
def initStep (st : InitState α) : InitPc → InitChoice → Option (InitState α × InitPc)
  | .start, .next =>
    if st.writer then none else some ({ st with readers := st.readers + 1 }, .reading)
  | .reading, .next =>
    some ({ st with readers := st.readers - 1 },
      if st.initialised then .returned true else .locking)
  | .locking, .next =>
    if st.writer ∨ 0 < st.readers then none else some ({ st with writer := true }, .checking)
  | .checking, .next =>
    if st.initialised then some ({ st with writer := false }, .returned true)
    else some (st, .loading)
  | .loading, .load none => some ({ st with writer := false }, .returned false)
  | .loading, .load (some cfg) => some (st, .switching cfg)
  | .switching cfg, .switch ok =>
    let r := sw st.exec cfg ok
    if r.2 then some ({ st with exec := r.1 }, .starting)
    else some ({ st with exec := r.1, writer := false }, .returned false)
  | .starting, .next => some ({ st with watchers := st.watchers + 1 }, .marking)
  | .marking, .next => some ({ st with initialised := true, writer := false }, .returned true)
  | _, _ => none

/-- `initStep` as a relation, one constructor per transition. -/
inductive InitMove : InitState α → InitPc → InitState α → InitPc → Prop
  | rlock {st : InitState α} (hw : st.writer = false) :
      InitMove st .start { st with readers := st.readers + 1 } .reading
  | fastPath {st : InitState α} (hi : st.initialised = true) :
      InitMove st .reading { st with readers := st.readers - 1 } (.returned true)
  | slowPath {st : InitState α} (hi : st.initialised = false) :
      InitMove st .reading { st with readers := st.readers - 1 } .locking
  | lock {st : InitState α} (hw : st.writer = false) (hr : st.readers = 0) :
      InitMove st .locking { st with writer := true } .checking
  | recheckDone {st : InitState α} (hi : st.initialised = true) :
      InitMove st .checking { st with writer := false } (.returned true)
  | recheckGo {st : InitState α} (hi : st.initialised = false) :
      InitMove st .checking st .loading
  | loadFailed {st : InitState α} :
      InitMove st .loading { st with writer := false } (.returned false)
  | loaded {st : InitState α} (cfg : KsConfig) : InitMove st .loading st (.switching cfg)
  | switchFailed {st : InitState α} (cfg : KsConfig) (ok : Bool)
      (h : (sw st.exec cfg ok).2 = false) :
      InitMove st (.switching cfg) { st with exec := (sw st.exec cfg ok).1, writer := false }
        (.returned false)
  | switched {st : InitState α} (cfg : KsConfig) (ok : Bool) (h : (sw st.exec cfg ok).2 = true) :
      InitMove st (.switching cfg) { st with exec := (sw st.exec cfg ok).1 } .starting
  | startWatcher {st : InitState α} :
      InitMove st .starting { st with watchers := st.watchers + 1 } .marking
  | mark {st : InitState α} :
      InitMove st .marking { st with initialised := true, writer := false } (.returned true)

theorem initStep_move {st st' : InitState α} {pc pc' : InitPc} {ch : InitChoice}
    (h : initStep sw st pc ch = some (st', pc')) : InitMove sw st pc st' pc' := by
  cases pc <;> cases ch <;> simp only [initStep, reduceCtorEq] at h
  case start.next =>
    split_ifs at h with hw; cases h; exact .rlock (by simpa using hw)
  case reading.next =>
    cases h
    split <;> rename_i hi
    exacts [.fastPath hi, .slowPath (by simpa using hi)]
  case locking.next =>
    split_ifs at h with hw; cases h
    simp only [not_or, Bool.not_eq_true, not_lt, Nat.le_zero] at hw
    exact .lock hw.1 hw.2
  case checking.next =>
    split_ifs at h with hi <;> cases h
    exacts [.recheckDone hi, .recheckGo (by simpa using hi)]
  case loading.load r =>
    cases r <;> cases h
    exacts [.loadFailed, .loaded _]
  case switching.switch cfg ok =>
    split_ifs at h with hok <;> cases h
    exacts [.switched cfg ok hok, .switchFailed cfg ok (by simpa using hok)]
  case starting.next => cases h; exact .startWatcher
  case marking.next => cases h; exact .mark

/-- An `init()` step changes the executor only by calling `switchConfig`. -/
theorem InitMove.exec_eq {st st' : InitState α} {pc pc' : InitPc}
    (hm : InitMove sw st pc st' pc') :
    st'.exec = st.exec ∨ ∃ cfg ok, st'.exec = (sw st.exec cfg ok).1 := by
  cases hm
  case switchFailed cfg ok _ => exact .inr ⟨cfg, ok, rfl⟩
  case switched cfg ok _ => exact .inr ⟨cfg, ok, rfl⟩
  all_goals exact .inl rfl

end Call

/-! ## 2. Any number of concurrent calls -/

/-- The executor's `init()` fields and the calls made so far. -/
structure InitSys (α : Type) where
  st : InitState α
  calls : List InitPc

inductive InitAct where
  /-- A new `Query`/`Execute` calls `init()`. -/
  | spawn
  /-- Call `i` takes its next step. -/
  | call (i : Nat) (ch : InitChoice)
  /-- A watcher runs `switchConfig(cfg)`; `ok` is whether it succeeds. -/
  | watch (cfg : KsConfig) (ok : Bool)
  deriving DecidableEq, Repr

namespace InitSys

variable {α : Type} (sw : α → KsConfig → Bool → α × Bool)

/-- The executor `gocqlConnector` builds: not initialised, `initMtx` free, no watcher. -/
def init (e₀ : α) : InitSys α := ⟨⟨e₀, false, 0, false, 0⟩, []⟩

def step (s : InitSys α) : InitAct → Option (InitSys α)
  | .spawn => some { s with calls := s.calls ++ [.start] }
  | .call i ch =>
    s.calls[i]?.bind fun pc => (initStep sw s.st pc ch).map fun r => ⟨r.1, s.calls.set i r.2⟩
  | .watch cfg ok =>
    if 0 < s.st.watchers then some { s with st := { s.st with exec := (sw s.st.exec cfg ok).1 } }
    else none

inductive Step : InitSys α → InitSys α → Prop
  | spawn (s : InitSys α) : Step s { s with calls := s.calls ++ [.start] }
  | call {s : InitSys α} {i : Nat} {pc pc' : InitPc} {st' : InitState α}
      (hi : s.calls[i]? = some pc) (hm : InitMove sw s.st pc st' pc') :
      Step s ⟨st', s.calls.set i pc'⟩
  | watch {s : InitSys α} (cfg : KsConfig) (ok : Bool) (hw : 0 < s.st.watchers) :
      Step s { s with st := { s.st with exec := (sw s.st.exec cfg ok).1 } }

theorem step_sound {s s' : InitSys α} {a : InitAct} (h : s.step sw a = some s') : Step sw s s' := by
  cases a with
  | spawn => cases h; exact .spawn s
  | call i ch =>
    obtain ⟨pc, hi, h⟩ := Option.bind_eq_some.mp h
    obtain ⟨⟨st', pc'⟩, hr, rfl⟩ := Option.map_eq_some'.mp h
    exact .call hi (initStep_move sw hr)
  | watch cfg ok =>
    simp only [step] at h
    split at h
    · cases h; exact .watch cfg ok ‹_›
    · cases h

/-- The states reachable from the executor `e₀` under any schedule. -/
inductive Reachable (e₀ : α) : InitSys α → Prop
  | init : Reachable e₀ (init e₀)
  | step {s s' : InitSys α} : Reachable e₀ s → Step sw s s' → Reachable e₀ s'

def run : InitSys α → List InitAct → Option (InitSys α)
  | s, [] => some s
  | s, a :: as => (s.step sw a).bind fun s' => run s' as

theorem run_reachable {e₀ : α} {s s' : InitSys α} {as : List InitAct}
    (hs : Reachable sw e₀ s) (h : s.run sw as = some s') : Reachable sw e₀ s' := by
  induction as generalizing s with
  | nil => cases h; exact hs
  | cons a as ih =>
    obtain ⟨s₁, h₁, h₂⟩ := Option.bind_eq_some.mp h
    exact ih (hs.step (step_sound sw h₁)) h₂

/-! ## 3. The invariant -/

section Invariant

variable (installed : α → Bool)

/-- The lock is held for writing by exactly the call re-checking or past the re-check, if
    any; past the re-check there is no call once the flag is set; one watcher was started
    per call at `marking` and per initialisation; the executor is installed once initialised
    and after a successful `switchConfig`; and a call returned `nil` only once the flag is
    set. -/
structure InitOk (s : InitSys α) : Prop where
  lockHeld : s.calls.countP InitPc.pastCheck + s.calls.countP (· = .checking) =
    if s.st.writer then 1 else 0
  doneAlone : (if s.st.initialised then 1 else 0) + s.calls.countP InitPc.pastCheck ≤ 1
  watcherCount : s.st.watchers = (if s.st.initialised then 1 else 0) + s.calls.countP (· = .marking)
  initInstalled : s.st.initialised = true → installed s.st.exec = true
  startInstalled : ∀ pc ∈ s.calls, pc.installing = true → installed s.st.exec = true
  returnedInit : ∀ pc ∈ s.calls, pc = .returned true → s.st.initialised = true

theorem initOk_init (e₀ : α) : InitOk installed (init e₀) :=
  ⟨rfl, by simp [init], rfl, by simp [init], by simp [init], by simp [init]⟩

variable {sw installed}
variable (hsw : ∀ e cfg ok, (sw e cfg ok).2 = true → installed (sw e cfg ok).1 = true)
  (hkeep : ∀ e cfg ok, installed e = true → installed (sw e cfg ok).1 = true)

/-- What a call's move does to the counts `InitOk` keeps. -/
theorem InitOk.counts_step {s : InitSys α} {i : Nat} {pc pc' : InitPc} {st' : InitState α}
    (hs : InitOk installed s) (hi : s.calls[i]? = some pc) (hm : InitMove sw s.st pc st' pc') :
    (s.calls.set i pc').countP InitPc.pastCheck + (s.calls.set i pc').countP (· = .checking) =
        (if st'.writer then 1 else 0) ∧
      (if st'.initialised then 1 else 0) + (s.calls.set i pc').countP InitPc.pastCheck ≤ 1 ∧
      st'.watchers =
        (if st'.initialised then 1 else 0) + (s.calls.set i pc').countP (· = .marking) := by
  have hP := countP_set_add InitPc.pastCheck (b := pc') hi
  have hC := countP_set_add (fun pc => decide (pc = .checking)) (b := pc') hi
  have hM := countP_set_add (fun pc => decide (pc = .marking)) (b := pc') hi
  have hl := hs.lockHeld
  have hd := hs.doneAlone
  have hw := hs.watcherCount
  have hwb : (if s.st.writer then 1 else 0) ≤ 1 := by split <;> omega
  have hib : (if s.st.initialised then 1 else 0) ≤ 1 := by split <;> omega
  cases hm with
  | lock hw' _ =>
    simp only [hw', Bool.false_eq_true, if_false] at hl
    simp only [InitPc.pastCheck, reduceCtorEq, decide_True, decide_False, if_true, if_false,
      eq_self_iff_true] at hP hC hM ⊢
    omega
  | recheckGo hi' =>
    simp only [hi', Bool.false_eq_true, if_false] at hd hw ⊢
    simp only [InitPc.pastCheck, reduceCtorEq, decide_True, decide_False, if_true, if_false,
      eq_self_iff_true] at hP hC hM ⊢
    omega
  | _ =>
    simp only [InitPc.pastCheck, reduceCtorEq, decide_True, decide_False, if_true, if_false,
      eq_self_iff_true, Bool.false_eq_true] at hP hC hM ⊢
    omega

/-- The facts about the executor and the flag survive a move that keeps the flag, keeps the
    executor installed, and brings the call to a point that needs nothing new. -/
theorem InitOk.installed_frame {s : InitSys α} {i : Nat} {pc' : InitPc} {st' : InitState α}
    (hs : InitOk installed s) (hexec : installed s.st.exec = true → installed st'.exec = true)
    (hf : st'.initialised = s.st.initialised)
    (hin : pc'.installing = true → installed st'.exec = true)
    (hr : pc' = .returned true → s.st.initialised = true) :
    (st'.initialised = true → installed st'.exec = true) ∧
      (∀ q ∈ s.calls.set i pc', q.installing = true → installed st'.exec = true) ∧
      (∀ q ∈ s.calls.set i pc', q = .returned true → st'.initialised = true) := by
  rw [hf]
  refine ⟨fun h => hexec (hs.initInstalled h), fun q hq => ?_, fun q hq => ?_⟩ <;>
    rcases List.mem_or_eq_of_mem_set hq with hq | rfl
  exacts [fun h => hexec (hs.startInstalled q hq h), hin, hs.returnedInit q hq, hr]

include hsw hkeep in
/-- What a call's move does to the executor and the flag. -/
theorem InitOk.installed_step {s : InitSys α} {i : Nat} {pc pc' : InitPc} {st' : InitState α}
    (hs : InitOk installed s) (hi : s.calls[i]? = some pc) (hm : InitMove sw s.st pc st' pc') :
    (st'.initialised = true → installed st'.exec = true) ∧
      (∀ q ∈ s.calls.set i pc', q.installing = true → installed st'.exec = true) ∧
      (∀ q ∈ s.calls.set i pc', q = .returned true → st'.initialised = true) := by
  have hpc : pc ∈ s.calls := List.mem_iff_getElem?.mpr ⟨i, hi⟩
  cases hm with
  | fastPath hi' | recheckDone hi' => exact hs.installed_frame id rfl (by rintro ⟨⟩) fun _ => hi'
  | switched cfg ok h =>
    exact hs.installed_frame (hkeep _ _ _) rfl (fun _ => hsw _ _ _ h) (by rintro ⟨⟩)
  | switchFailed cfg ok _ =>
    exact hs.installed_frame (hkeep _ _ _) rfl (by rintro ⟨⟩) (by rintro ⟨⟩)
  | startWatcher =>
    exact hs.installed_frame id rfl (fun _ => hs.startInstalled _ hpc rfl) (by rintro ⟨⟩)
  | mark =>
    refine ⟨fun _ => hs.startInstalled _ hpc rfl, fun q hq hin => ?_, fun _ _ _ => rfl⟩
    rcases List.mem_or_eq_of_mem_set hq with hq | rfl
    exacts [hs.startInstalled q hq hin, absurd hin (by decide)]
  | _ => exact hs.installed_frame id rfl (by rintro ⟨⟩) (by rintro ⟨⟩)

include hsw hkeep in
theorem InitOk.step {s s' : InitSys α} (hs : InitOk installed s) (hst : Step sw s s') :
    InitOk installed s' := by
  cases hst with
  | spawn =>
    have hnew : ∀ pc ∈ s.calls ++ [InitPc.start], pc ∈ s.calls ∨ pc = .start := by simp
    refine ⟨by simpa using hs.lockHeld, by simpa using hs.doneAlone,
      by simpa using hs.watcherCount, hs.initInstalled, fun pc hpc hin => ?_, fun pc hpc hr => ?_⟩
    · rcases hnew pc hpc with hpc | rfl
      exacts [hs.startInstalled pc hpc hin, absurd hin (by decide)]
    · rcases hnew pc hpc with hpc | rfl
      exacts [hs.returnedInit pc hpc hr, absurd hr (by decide)]
  | watch cfg ok hw =>
    exact ⟨hs.lockHeld, hs.doneAlone, hs.watcherCount, fun hi => hkeep _ _ _ (hs.initInstalled hi),
      fun pc hpc hin => hkeep _ _ _ (hs.startInstalled pc hpc hin), hs.returnedInit⟩
  | call hi hm =>
    obtain ⟨hl, hd, hw⟩ := hs.counts_step hi hm
    obtain ⟨hI, hS, hR⟩ := hs.installed_step hsw hkeep hi hm
    exact ⟨hl, hd, hw, hI, hS, hR⟩

include hsw hkeep in
theorem Reachable.initOk {e₀ : α} {s : InitSys α} (h : Reachable sw e₀ s) : InitOk installed s := by
  induction h with
  | init => exact initOk_init installed e₀
  | step _ hst ih => exact ih.step hsw hkeep hst

end Invariant

/-- What every outcome of `switchConfig` keeps holds of the executor in every reachable
    state: `init()` calls and the watcher change it only through `switchConfig`. -/
theorem Reachable.exec {e₀ : α} {s : InitSys α} (P : α → Prop) (h₀ : P e₀)
    (hsw : ∀ e cfg ok, P e → P (sw e cfg ok).1) (h : Reachable sw e₀ s) : P s.st.exec := by
  induction h with
  | init => exact h₀
  | step _ hst ih =>
    cases hst with
    | spawn => exact ih
    | call _ hm => rcases hm.exec_eq with e | ⟨cfg, ok, e⟩ <;> rw [e]; exacts [ih, hsw _ _ _ ih]
    | watch cfg ok _ => exact hsw _ _ _ ih

/-- What the double-checked lock is for. At most one call is inside the block that builds
    the executor, and none is once the executor is initialised; at most one watcher goroutine
    was ever started; and a call that returned `nil` finds the executor initialised and
    installed. -/
def InitOnce (installed : α → Bool) (s : InitSys α) : Prop :=
  s.calls.countP InitPc.pastCheck ≤ 1 ∧
    (s.st.initialised = true → s.calls.countP InitPc.pastCheck = 0) ∧
    s.st.watchers ≤ 1 ∧
    ∀ pc ∈ s.calls, pc = .returned true → s.st.initialised = true ∧ installed s.st.exec = true

theorem InitOk.initOnce {installed : α → Bool} {s : InitSys α} (hs : InitOk installed s) :
    InitOnce installed s := by
  have hd := hs.doneAlone
  have hw := hs.watcherCount
  have hM : s.calls.countP (· = .marking) ≤ s.calls.countP InitPc.pastCheck :=
    List.countP_mono_left fun pc _ h => by simp only [decide_eq_true_eq] at h; subst h; rfl
  refine ⟨by omega, fun hi => ?_, by omega, fun pc hpc hr => ?_⟩
  · simp only [hi, if_true] at hd; omega
  · have hi := hs.returnedInit pc hpc hr
    exact ⟨hi, hs.initInstalled hi⟩

end InitSys

/-! ## 4. Both executors -/

/-- The pool-based `switchConfig`, which cannot fail: `ok` is not read. -/
def poolSwitch (hash : KsConfig → UInt32) (w : PoolExecutor.World) (cfg : KsConfig) (_ok : Bool) :
    PoolExecutor.World × Bool :=
  (PoolExecutor.switchConfig hash w cfg, true)

/-- `e.pool != nil`. -/
def poolInstalled (w : PoolExecutor.World) : Bool := w.exec.pool.isSome

/-- `e.session != nil`. -/
def sessionInstalled (w : SessionExecutor.World) : Bool := w.exec.session.isSome

section Executors

variable (hash : KsConfig → UInt32)

theorem sessionInstalled_switch (w : SessionExecutor.World) (cfg : KsConfig) (ok : Bool)
    (h : (SessionExecutor.switchConfig hash w cfg ok).2 = true ∨ sessionInstalled w = true) :
    sessionInstalled (SessionExecutor.switchConfig hash w cfg ok).1 = true := by
  cases ok with
  | true =>
    obtain ⟨x, hx, -⟩ := (SessionExecutor.switchConfig_ok hash w cfg).2.2.2
    simp [sessionInstalled, hx]
  | false =>
    rw [sessionInstalled, (SessionExecutor.switchConfig_error hash w cfg).2.1]
    simpa [(SessionExecutor.switchConfig_error hash w cfg).1] using h

end Executors

/-- **`init()` builds the executor once.** For both versions of `gocqlExecutor`, in every
    state reached from the executor `gocqlConnector` builds, under any interleaving of any
    number of `init()` calls, any `getKsConfig` and `CreateSession` outcomes and any watcher
    switches: at most one call is in the block that loads the config, switches and starts
    the watcher, and none once the executor is initialised; at most one watcher goroutine was
    started; and every call that returned `nil` finds `e.initialised` set and `e.pool`
    (`e.session`) installed. -/
theorem init_runs_once (hash : KsConfig → UInt32) (ks : String) :
    (∀ s, InitSys.Reachable (poolSwitch hash) (PoolExecutor.World.fresh ks) s →
      InitSys.InitOnce poolInstalled s) ∧
    (∀ s, InitSys.Reachable (SessionExecutor.switchConfig hash) (SessionExecutor.World.fresh ks) s →
      InitSys.InitOnce sessionInstalled s) :=
  ⟨fun _ hs => (hs.initOk (fun _ _ _ _ => rfl) fun _ _ _ _ => rfl).initOnce,
    fun _ hs => (hs.initOk (fun w cfg ok h => sessionInstalled_switch hash w cfg ok (.inl h))
      fun w cfg ok h => sessionInstalled_switch hash w cfg ok (.inr h)).initOnce⟩

/-- **The session-based executor never leaks a session.** In every state reached from the
    executor `gocqlConnector` builds, under any interleaving of any number of `init()` calls
    and the watcher's switches, with any `getKsConfig` and `CreateSession` outcomes, every
    session created and still open is the one `e.session` points at. So at most one session
    is ever open, and after a failed switch none is. -/
theorem sessions_never_leak (hash : KsConfig → UInt32) (ks : String)
    {s : InitSys SessionExecutor.World}
    (h : InitSys.Reachable (SessionExecutor.switchConfig hash) (SessionExecutor.World.fresh ks) s) :
    SessionExecutor.NoLeak s.st.exec :=
  InitSys.Reachable.exec _ SessionExecutor.NoLeak (SessionExecutor.noLeak_fresh ks)
    (fun _ _ _ hw => hw.switchConfig hash _ _) h

/-- `init()` installs a session; the watcher's next switch fails, and the one after succeeds. -/
def retriedSwitchRun : List InitAct :=
  [.spawn, .call 0 .next, .call 0 .next, .call 0 .next, .call 0 .next,
   .call 0 (.load (some Sys.reuseCfg)), .call 0 (.switch true), .call 0 .next, .call 0 .next,
   .watch Sys.reuseCfg false, .watch Sys.reuseCfg true]

/-- The session-based executor after `retriedSwitchRun`. -/
def retriedSession : InitSys SessionExecutor.World :=
  ((InitSys.init (SessionExecutor.World.fresh "dummyks")).run
    (SessionExecutor.switchConfig KsConfig.hostsHash) retriedSwitchRun).getD
    (InitSys.init (SessionExecutor.World.fresh "dummyks"))

example : retriedSession.st.exec.exec.session = some 1 ∧
    retriedSession.st.exec.sessions.closed 0 = true ∧ retriedSession.st.exec.sessions.next = 2 := by
  decide

theorem sessions_never_leak_retried :
    InitSys.Reachable (SessionExecutor.switchConfig KsConfig.hostsHash)
        (SessionExecutor.World.fresh "dummyks") retriedSession ∧
      SessionExecutor.NoLeak retriedSession.st.exec :=
  have hs := InitSys.run_reachable _ .init (rfl : (InitSys.init (SessionExecutor.World.fresh
    "dummyks")).run (SessionExecutor.switchConfig KsConfig.hostsHash) retriedSwitchRun =
      some retriedSession)
  ⟨hs, sessions_never_leak KsConfig.hostsHash "dummyks" hs⟩

/-- Two first calls race: both find the flag unset and queue on the lock; the first builds
    the executor, and the second finds it built at the re-check. -/
def racingRun : List InitAct :=
  [.spawn, .spawn, .call 0 .next, .call 1 .next, .call 0 .next, .call 1 .next,
   .call 0 .next, .call 0 .next, .call 0 (.load (some Sys.reuseCfg)), .call 0 (.switch true),
   .call 0 .next, .call 0 .next, .call 1 .next, .call 1 .next]

/-- The pool-based executor after `racingRun`. -/
def racedPool : InitSys PoolExecutor.World :=
  ((InitSys.init (PoolExecutor.World.fresh "dummyks")).run (poolSwitch KsConfig.hostsHash)
    racingRun).getD (InitSys.init (PoolExecutor.World.fresh "dummyks"))

/-- The session-based executor after `racingRun`. -/
def racedSession : InitSys SessionExecutor.World :=
  ((InitSys.init (SessionExecutor.World.fresh "dummyks")).run
    (SessionExecutor.switchConfig KsConfig.hostsHash) racingRun).getD
    (InitSys.init (SessionExecutor.World.fresh "dummyks"))

example : racedPool.calls = [.returned true, .returned true] ∧ racedPool.st.watchers = 1 := by
  decide

theorem init_runs_once_racing :
    InitSys.Reachable (poolSwitch KsConfig.hostsHash) (PoolExecutor.World.fresh "dummyks")
        racedPool ∧ InitSys.InitOnce poolInstalled racedPool ∧
      InitSys.Reachable (SessionExecutor.switchConfig KsConfig.hostsHash)
        (SessionExecutor.World.fresh "dummyks") racedSession ∧
      InitSys.InitOnce sessionInstalled racedSession :=
  have hp := InitSys.run_reachable _ .init (rfl : (InitSys.init (PoolExecutor.World.fresh
    "dummyks")).run (poolSwitch KsConfig.hostsHash) racingRun = some racedPool)
  have hs := InitSys.run_reachable _ .init (rfl : (InitSys.init (SessionExecutor.World.fresh
    "dummyks")).run (SessionExecutor.switchConfig KsConfig.hostsHash) racingRun = some racedSession)
  ⟨hp, (init_runs_once KsConfig.hostsHash "dummyks").1 _ hp, hs,
    (init_runs_once KsConfig.hostsHash "dummyks").2 _ hs⟩

end Gocassa
end ServiceLayer
