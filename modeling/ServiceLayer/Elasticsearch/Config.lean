import Mathlib.Logic.Function.Basic

/-!
# `elasticsearch.LoadConfig`: a reload that can lose the last update

`LoadConfig()` runs `setup()` once. `setup()` subscribes to config changes, starts a
goroutine that calls `loadEndpointConfig()` after each change notification, and then calls
`loadEndpointConfig()` itself. `loadEndpointConfig()` reads the port (9200 by default) and
the host array (`localhost:19200` when it is empty) from the config service, and writes
`eapi.Port`, `eapi.Protocol` (`https` when the port is 443; nothing writes `http`) and,
through `eapi.SetHosts`, the hosts. Nothing orders its two callers: the goroutine starts
before `setup()`'s own call, and neither takes a lock.

* On every schedule in which `setup()`'s load returns before the goroutine's first step,
  each state with no load running and no notification waiting has the settings the
  current config gives (`reload_tracks_config`). The hypothesis is needed: for any two
  configs, `setup()`'s load can read the first, the goroutine can load the second to its
  end, and `setup()`'s load can then write the first one's port and hosts over it
  (`overlapping_load_loses_update`).
* A lost update lasts until the next change. After it, every state with no load running
  and no notification waiting is synced again (`next_change_resyncs`).

## What is modelled, and how

Each `loadEndpointConfig()` call is a program point (`LoadPc`) carrying the locals it has
computed, with one step per read of the config service and per write of an `eapi` variable
(`loadEndpointConfigStep`). `AsHostnameArray(port)` belongs to the config package and is a
parameter. The config service holds one config. A change replaces it and leaves one waiting
notification, however many changes come before the goroutine's receive. `sync.Once` runs
`setup()` once, so the model starts once `setup()` has started its goroutine
(`Loader.started`).
-/

set_option autoImplicit false

namespace ServiceLayer
namespace Elasticsearch

/-! ## 1. One `loadEndpointConfig()` call -/

/-- What the config service holds under `hailo.service.elasticsearch`: the `port`, when it
    is an integer, and the `hosts` array. -/
structure EsConfig where
  port : Option Int
  hosts : List String
  deriving DecidableEq, Repr

/-- The package variables of `elastigo/api` that `loadEndpointConfig()` writes:
    `eapi.Port`, `eapi.Protocol`, and the hosts `eapi.SetHosts` installs. -/
structure Eapi where
  port : String
  protocol : String
  hosts : List String
  deriving DecidableEq, Repr

namespace Eapi

/-- `eapi.Port = strconv.Itoa(port)`. -/
def setPort (a : Eapi) (port : Int) : Eapi := { a with port := toString port }

/-- `if port == 443 { eapi.Protocol = "https" }`. -/
def setProtocol (a : Eapi) (port : Int) : Eapi :=
  if port = 443 then { a with protocol := "https" } else a

/-- `eapi.SetHosts(hosts)`. -/
def setHosts (a : Eapi) (hosts : List String) : Eapi := { a with hosts := hosts }

@[simp] theorem setPort_port (a : Eapi) (p : Int) : (a.setPort p).port = toString p := rfl
@[simp] theorem setPort_protocol (a : Eapi) (p : Int) : (a.setPort p).protocol = a.protocol := rfl
@[simp] theorem setPort_hosts (a : Eapi) (p : Int) : (a.setPort p).hosts = a.hosts := rfl

@[simp] theorem setProtocol_port (a : Eapi) (p : Int) : (a.setProtocol p).port = a.port := by
  unfold setProtocol; split <;> rfl

@[simp] theorem setProtocol_hosts (a : Eapi) (p : Int) : (a.setProtocol p).hosts = a.hosts := by
  unfold setProtocol; split <;> rfl

@[simp] theorem setProtocol_protocol (a : Eapi) (p : Int) :
    (a.setProtocol p).protocol = if p = 443 then "https" else a.protocol := by
  unfold setProtocol; split <;> rfl

@[simp] theorem setHosts_port (a : Eapi) (hs : List String) : (a.setHosts hs).port = a.port := rfl
@[simp] theorem setHosts_protocol (a : Eapi) (hs : List String) :
    (a.setHosts hs).protocol = a.protocol := rfl
@[simp] theorem setHosts_hosts (a : Eapi) (hs : List String) : (a.setHosts hs).hosts = hs := rfl

end Eapi

/-- `config.AtPath("hailo", "service", "elasticsearch", "port").AsInt(9200)`. -/
def readPort (c : EsConfig) : Int := c.port.getD 9200

section Load

variable (asHostnameArray : List String → Int → List String)

/-- `config.AtPath(..., "hosts").AsHostnameArray(port)`, then `localhost:19200` in place of
    an empty array. -/
def readHosts (c : EsConfig) (port : Int) : List String :=
  let hosts := asHostnameArray c.hosts port
  if hosts.length = 0 then hosts ++ ["localhost:19200"] else hosts

/-- `loadEndpointConfig()` run to its end with no other goroutine in between, while the
    config service holds `c`. -/
def loadEndpointConfig (c : EsConfig) (a : Eapi) : Eapi :=
  let port := readPort c
  ((a.setPort port).setProtocol port).setHosts (readHosts asHostnameArray c port)

/-- Where a `loadEndpointConfig()` call is, with the locals it has computed. -/
inductive LoadPc where
  /-- About to read the port. -/
  | readingPort
  /-- Read `port`; about to read the hosts. -/
  | readingHosts (port : Int)
  /-- About to set `eapi.Port`. -/
  | settingPort (port : Int) (hosts : List String)
  /-- About to set `eapi.Protocol` if the port is 443. -/
  | settingProtocol (port : Int) (hosts : List String)
  /-- About to call `eapi.SetHosts(hosts)`. -/
  | settingHosts (hosts : List String)
  /-- Returned (for the goroutine: waiting in `<-ch`). -/
  | done
  deriving DecidableEq, Repr

/-- One step of a `loadEndpointConfig()` call while the config service holds `c`; `none`
    once it has returned. -/
def loadEndpointConfigStep (c : EsConfig) (a : Eapi) : LoadPc → Option (Eapi × LoadPc)
  | .readingPort => some (a, .readingHosts (readPort c))
  | .readingHosts port => some (a, .settingPort port (readHosts asHostnameArray c port))
  | .settingPort port hosts => some (a.setPort port, .settingProtocol port hosts)
  | .settingProtocol port hosts => some (a.setProtocol port, .settingHosts hosts)
  | .settingHosts hosts => some (a.setHosts hosts, .done)
  | .done => none

/-- Settings that loading config `c` again would leave as they are. -/
def Synced (c : EsConfig) (a : Eapi) : Prop := loadEndpointConfig asHostnameArray c a = a

/-- What a load at `pc` has read agrees with config `c`, and what it has written is in `a`. -/
def LoadFresh (c : EsConfig) (a : Eapi) : LoadPc → Prop
  | .readingPort | .done => True
  | .readingHosts port => port = readPort c
  | .settingPort port hosts => port = readPort c ∧ hosts = readHosts asHostnameArray c port
  | .settingProtocol port hosts =>
    port = readPort c ∧ hosts = readHosts asHostnameArray c port ∧ a.port = toString port
  | .settingHosts hosts =>
    hosts = readHosts asHostnameArray c (readPort c) ∧ a.port = toString (readPort c) ∧
      (readPort c = 443 → a.protocol = "https")

/-- From `a` to `a'` each variable keeps its value or takes the one config `c` gives it. -/
def Writes (c : EsConfig) (a a' : Eapi) : Prop :=
  (a'.port = a.port ∨ a'.port = toString (readPort c)) ∧
  (a'.protocol = a.protocol ∨ (readPort c = 443 ∧ a'.protocol = "https")) ∧
  (a'.hosts = a.hosts ∨ a'.hosts = readHosts asHostnameArray c (readPort c))

/-! ## 2. What one load does -/

theorem synced_iff {c : EsConfig} {a : Eapi} :
    Synced asHostnameArray c a ↔ a.port = toString (readPort c) ∧
      (readPort c = 443 → a.protocol = "https") ∧
      a.hosts = readHosts asHostnameArray c (readPort c) := by
  obtain ⟨port, protocol, hosts⟩ := a
  simp only [Synced, loadEndpointConfig, Eapi.setHosts, Eapi.setProtocol, Eapi.setPort]
  split_ifs with h <;> simp [h, eq_comm]

variable {asHostnameArray} {c : EsConfig} {a a' : Eapi} {pc pc' : LoadPc}

/-- Run alone, the five steps of a load are `loadEndpointConfig()`. -/
theorem loadEndpointConfigStep_alone (c : EsConfig) (a : Eapi) :
    let step := fun r : Eapi × LoadPc => loadEndpointConfigStep asHostnameArray c r.1 r.2
    (((step (a, .readingPort)).bind step).bind step).bind step |>.bind step =
      some (loadEndpointConfig asHostnameArray c a, .done) := rfl

theorem loadEndpointConfigStep_fresh (hf : LoadFresh asHostnameArray c a pc)
    (h : loadEndpointConfigStep asHostnameArray c a pc = some (a', pc')) :
    LoadFresh asHostnameArray c a' pc' := by
  cases pc <;>
    simp only [loadEndpointConfigStep, Option.some.injEq, Prod.mk.injEq, reduceCtorEq] at h <;>
    obtain ⟨rfl, rfl⟩ := h <;> simp_all [LoadFresh]

theorem loadEndpointConfigStep_writes (hf : LoadFresh asHostnameArray c a pc)
    (h : loadEndpointConfigStep asHostnameArray c a pc = some (a', pc')) :
    Writes asHostnameArray c a a' := by
  cases pc <;>
    simp only [loadEndpointConfigStep, Option.some.injEq, Prod.mk.injEq, reduceCtorEq] at h <;>
    obtain ⟨rfl, rfl⟩ := h <;> simp only [LoadFresh] at hf <;>
    simp only [Writes, Eapi.setPort_port, Eapi.setPort_protocol, Eapi.setPort_hosts,
      Eapi.setProtocol_port, Eapi.setProtocol_hosts, Eapi.setProtocol_protocol,
      Eapi.setHosts_port, Eapi.setHosts_protocol, Eapi.setHosts_hosts, true_or, or_true,
      and_true, true_and]
  case settingPort port hosts => exact .inr (congrArg toString hf.1)
  case settingProtocol port hosts =>
    obtain ⟨rfl, -, -⟩ := hf
    split_ifs with h443 <;> simp [h443]
  case settingHosts hosts => exact .inr hf.1

theorem LoadFresh.writes {q : LoadPc} (hq : LoadFresh asHostnameArray c a q)
    (hw : Writes asHostnameArray c a a') : LoadFresh asHostnameArray c a' q := by
  obtain ⟨hport, hprot, -⟩ := hw
  cases q <;> simp only [LoadFresh] at hq ⊢
  case settingProtocol port hosts =>
    obtain ⟨rfl, rfl, hp⟩ := hq
    exact ⟨rfl, rfl, hport.elim (·.trans hp) id⟩
  case settingHosts hosts =>
    obtain ⟨rfl, hp, hpr⟩ := hq
    exact ⟨rfl, hport.elim (·.trans hp) id,
      fun h443 => hprot.elim (·.trans (hpr h443)) (·.2)⟩
  all_goals exact hq

theorem loadEndpointConfigStep_done (hf : LoadFresh asHostnameArray c a pc)
    (h : loadEndpointConfigStep asHostnameArray c a pc = some (a', .done)) :
    Synced asHostnameArray c a' := by
  cases pc <;> simp only [loadEndpointConfigStep, Option.some.injEq, Prod.mk.injEq, reduceCtorEq,
    and_false] at h
  case settingHosts hosts =>
    obtain ⟨rfl, -⟩ := h
    obtain ⟨rfl, hp, hpr⟩ := hf
    exact (synced_iff asHostnameArray).mpr ⟨hp, hpr, rfl⟩

end Load

/-! ## 3. `setup()`'s load and the goroutine -/

/-- The loader once `setup()` has subscribed to changes and started its goroutine. -/
structure Loader where
  /-- What the config service holds now. -/
  cfg : EsConfig
  /-- A change notification waits on `ch`. -/
  pending : Bool
  eapi : Eapi
  /-- `setup()`'s own `loadEndpointConfig()` call. -/
  setupLoad : LoadPc
  /-- The goroutine: `done` while it waits in `<-ch`, else inside `loadEndpointConfig()`. -/
  watcher : LoadPc
  deriving DecidableEq, Repr

inductive LoaderAct where
  /-- `setup()`'s own load takes a step. -/
  | setup
  /-- The goroutine receives a notification, or its load takes a step. -/
  | watch
  /-- The config service changes to `c` and notifies. -/
  | change (c : EsConfig)
  deriving DecidableEq, Repr

namespace Loader

variable (asHostnameArray : List String → Int → List String)

/-- Right after `setup()` started its goroutine, with config `c` and settings `a`. -/
def started (c : EsConfig) (a : Eapi) : Loader := ⟨c, false, a, .readingPort, .done⟩

def step (s : Loader) : LoaderAct → Option Loader
  | .setup => (loadEndpointConfigStep asHostnameArray s.cfg s.eapi s.setupLoad).map fun r =>
    { s with eapi := r.1, setupLoad := r.2 }
  | .watch =>
    match s.watcher with
    | .done =>
      if s.pending then some { s with pending := false, watcher := .readingPort } else none
    | pc => (loadEndpointConfigStep asHostnameArray s.cfg s.eapi pc).map fun r =>
      { s with eapi := r.1, watcher := r.2 }
  | .change c => some { s with cfg := c, pending := true }

def run : Loader → List LoaderAct → Option Loader
  | s, [] => some s
  | s, a :: as => (s.step asHostnameArray a).bind fun s' => run s' as

/-- No load is running and no notification waits. -/
def Quiescent (s : Loader) : Prop :=
  s.setupLoad = .done ∧ s.watcher = .done ∧ s.pending = false

/-- A waiting notification, or both loads fresh, and the settings synced once neither runs. -/
def Tracked (s : Loader) : Prop :=
  s.pending = true ∨
    (LoadFresh asHostnameArray s.cfg s.eapi s.setupLoad ∧
      LoadFresh asHostnameArray s.cfg s.eapi s.watcher ∧
      (s.setupLoad = .done → s.watcher = .done → Synced asHostnameArray s.cfg s.eapi))

variable {asHostnameArray}

theorem tracked_started (c : EsConfig) (a : Eapi) : (started c a).Tracked asHostnameArray :=
  .inr ⟨trivial, trivial, fun h => by cases h⟩

theorem step_setupLoad_done {s s' : Loader} {act : LoaderAct} (hd : s.setupLoad = .done)
    (h : s.step asHostnameArray act = some s') : s'.setupLoad = .done := by
  cases act with
  | setup => simp [step, hd, loadEndpointConfigStep] at h
  | watch =>
    simp only [step] at h
    split at h
    · split_ifs at h; cases h; exact hd
    · obtain ⟨r, -, rfl⟩ := Option.map_eq_some'.mp h; exact hd
  | change c => cases h; exact hd

/-- **One step keeps the settings tracked**, unless it is the goroutine's receive while
    `setup()`'s own load still runs. -/
theorem Tracked.step {s s' : Loader} {act : LoaderAct} (hs : s.Tracked asHostnameArray)
    (hov : act = .watch → s.watcher = .done → s.setupLoad = .done)
    (h : s.step asHostnameArray act = some s') : s'.Tracked asHostnameArray := by
  cases act with
  | change c => cases h; exact .inl rfl
  | setup =>
    obtain ⟨⟨a', pc'⟩, hl, rfl⟩ := Option.map_eq_some'.mp h
    rcases hs with hp | ⟨hfs, hfw, -⟩
    · exact .inl hp
    · exact .inr ⟨loadEndpointConfigStep_fresh hfs hl,
        hfw.writes (loadEndpointConfigStep_writes hfs hl),
        fun hd _ => loadEndpointConfigStep_done hfs (hd ▸ hl)⟩
  | watch =>
    simp only [Loader.step] at h
    split at h
    · rename_i hw
      split_ifs at h; cases h
      exact .inr ⟨by rw [hov rfl hw]; trivial, trivial, fun _ h => by cases h⟩
    · obtain ⟨⟨a', pc'⟩, hl, rfl⟩ := Option.map_eq_some'.mp h
      rcases hs with hp | ⟨hfs, hfw, -⟩
      · exact .inl hp
      · exact .inr ⟨hfs.writes (loadEndpointConfigStep_writes hfw hl),
          loadEndpointConfigStep_fresh hfw hl,
          fun _ hd => loadEndpointConfigStep_done hfw (hd ▸ hl)⟩

theorem Tracked.synced {s : Loader} (hs : s.Tracked asHostnameArray) (hq : s.Quiescent) :
    Synced asHostnameArray s.cfg s.eapi := by
  obtain ⟨hsd, hwd, hp⟩ := hq
  rcases hs with h | ⟨-, -, hsy⟩
  · rw [hp] at h; cases h
  · exact hsy hsd hwd

/-- A schedule in which the goroutine takes no step keeps the settings tracked. -/
theorem Tracked.run_noWatch {s s' : Loader} {acts : List LoaderAct} (hs : s.Tracked asHostnameArray)
    (hno : LoaderAct.watch ∉ acts) (h : s.run asHostnameArray acts = some s') :
    s'.Tracked asHostnameArray := by
  induction acts generalizing s with
  | nil => cases h; exact hs
  | cons act acts ih =>
    obtain ⟨s₁, h₁, h₂⟩ := Option.bind_eq_some.mp h
    have hne : act ≠ .watch := fun e => hno (e ▸ List.mem_cons_self _ _)
    exact ih (hs.step (fun e => absurd e hne) h₁) (fun hm => hno (List.mem_cons_of_mem _ hm)) h₂

/-- Once `setup()`'s own load has returned, every schedule keeps the settings tracked. -/
theorem Tracked.run_afterSetup {s s' : Loader} {acts : List LoaderAct}
    (hs : s.Tracked asHostnameArray) (hd : s.setupLoad = .done)
    (h : s.run asHostnameArray acts = some s') : s'.Tracked asHostnameArray := by
  induction acts generalizing s with
  | nil => cases h; exact hs
  | cons act acts ih =>
    obtain ⟨s₁, h₁, h₂⟩ := Option.bind_eq_some.mp h
    exact ih (hs.step (fun _ _ => hd) h₁) (step_setupLoad_done hd h₁) h₂

/-! ## 4. The loader over whole runs -/

/-- **Without overlap, reloads track the config.** On every schedule in which `setup()`'s
    own load returns before the goroutine takes its first step, whatever configs the
    service changes to and whenever, each state with no load running and no notification
    waiting has the settings that loading the current config gives. -/
theorem reload_tracks_config {c₀ : EsConfig} {a₀ : Eapi} {pre post : List LoaderAct}
    {s₁ s : Loader} (hpre : LoaderAct.watch ∉ pre)
    (h₁ : (started c₀ a₀).run asHostnameArray pre = some s₁) (hsetup : s₁.setupLoad = .done)
    (h : s₁.run asHostnameArray post = some s) (hq : s.Quiescent) :
    Synced asHostnameArray s.cfg s.eapi :=
  (((tracked_started c₀ a₀).run_noWatch hpre h₁).run_afterSetup hsetup h).synced hq

/-- The schedule of a lost update: `setup()`'s load reads the config, the config changes to
    `c₁`, the goroutine loads `c₁` to its end, and `setup()`'s load writes what it read. -/
def lostUpdate (c₁ : EsConfig) : List LoaderAct :=
  [.setup, .setup, .change c₁] ++ List.replicate 6 .watch ++ List.replicate 3 .setup

/-- **The schedule hypothesis of `reload_tracks_config` is needed.** For any two configs and
    any settings, a schedule whose goroutine loads while `setup()`'s load runs ends with no
    load running and no notification waiting, the service holding `c₁`, and the settings
    holding `c₀`'s port and hosts. They are not synced whenever the two configs give
    different hosts. -/
theorem overlapping_load_loses_update (c₀ c₁ : EsConfig) (a₀ : Eapi) :
    ∃ s, (started c₀ a₀).run asHostnameArray (lostUpdate c₁) = some s ∧ s.Quiescent ∧
      s.cfg = c₁ ∧ s.eapi.port = toString (readPort c₀) ∧
      s.eapi.hosts = readHosts asHostnameArray c₀ (readPort c₀) ∧
      (readHosts asHostnameArray c₀ (readPort c₀) ≠ readHosts asHostnameArray c₁ (readPort c₁) →
        ¬ Synced asHostnameArray s.cfg s.eapi) := by
  refine ⟨_, rfl, ⟨rfl, rfl, rfl⟩, rfl, by simp [started], by simp [started],
    fun hne hsy => hne ?_⟩
  exact (by simpa using ((synced_iff asHostnameArray).mp hsy).2.2 :
    readHosts asHostnameArray c₀ (readPort c₀) = readHosts asHostnameArray c₁ (readPort c₁))

/-- An `AsHostnameArray` that gives the hosts as they are. -/
def bareHostnames (hosts : List String) (_port : Int) : List String := hosts

def tlsCfg : EsConfig := ⟨some 443, ["es1"]⟩

def plainCfg : EsConfig := ⟨none, ["es1", "es2"]⟩

def defaultEapi : Eapi := ⟨"9200", "http", []⟩

def setupOnly : List LoaderAct := List.replicate 5 .setup

/-- Where `setupOnly` leaves the loader started on `tlsCfg`. -/
def afterTls : Loader := ⟨tlsCfg, false, ⟨"443", "https", ["es1"]⟩, .done, .done⟩

/-- A change to `plainCfg`, which the goroutine loads. -/
def reloadPlain : List LoaderAct := .change plainCfg :: List.replicate 6 .watch

/-- Where `reloadPlain` leaves `afterTls`: port 9200, and still `https`. -/
def afterPlain : Loader := ⟨plainCfg, false, ⟨"9200", "https", ["es1", "es2"]⟩, .done, .done⟩

theorem reload_tracks_config_plain :
    (started tlsCfg defaultEapi).run bareHostnames setupOnly = some afterTls ∧
      afterTls.run bareHostnames reloadPlain = some afterPlain ∧
      Synced bareHostnames afterPlain.cfg afterPlain.eapi :=
  have h₁ : (started tlsCfg defaultEapi).run bareHostnames setupOnly = some afterTls := by
    decide
  have h : afterTls.run bareHostnames reloadPlain = some afterPlain := by decide
  ⟨h₁, h, reload_tracks_config (by decide) h₁ rfl h ⟨rfl, rfl, rfl⟩⟩

/-- **A lost update lasts until the next change.** From any state in which `setup()`'s own
    load has returned, such as the one a lost update leaves, a config change followed by any
    schedule leaves the settings synced with the service in every state with no load running
    and no notification waiting. -/
theorem next_change_resyncs {s s' : Loader} (c : EsConfig) {post : List LoaderAct}
    (hd : s.setupLoad = .done) (h : s.run asHostnameArray (.change c :: post) = some s')
    (hq : s'.Quiescent) : Synced asHostnameArray s'.cfg s'.eapi := by
  obtain ⟨s₁, h₁, h₂⟩ := Option.bind_eq_some.mp h
  cases h₁
  have ht : Tracked asHostnameArray { s with cfg := c, pending := true } := .inl rfl
  exact (ht.run_afterSetup hd h₂).synced hq

/-- Where `lostUpdate plainCfg` leaves the loader started on `tlsCfg`: the service holds
    `plainCfg`, and the settings `tlsCfg`'s port and hosts. -/
def afterLost : Loader := ⟨plainCfg, false, ⟨"443", "https", ["es1"]⟩, .done, .done⟩

theorem next_change_resyncs_afterLost :
    (started tlsCfg defaultEapi).run bareHostnames (lostUpdate plainCfg) = some afterLost ∧
      afterLost.setupLoad = .done ∧ afterLost.run bareHostnames reloadPlain = some afterPlain ∧
      Synced bareHostnames afterPlain.cfg afterPlain.eapi :=
  have hl : (started tlsCfg defaultEapi).run bareHostnames (lostUpdate plainCfg) =
      some afterLost := by decide
  have h : afterLost.run bareHostnames reloadPlain = some afterPlain := by decide
  ⟨hl, rfl, h, next_change_resyncs plainCfg rfl h ⟨rfl, rfl, rfl⟩⟩

end Loader

end Elasticsearch
end ServiceLayer
