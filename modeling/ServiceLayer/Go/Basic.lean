import Mathlib.Data.List.Basic
import Mathlib.Logic.Function.Basic

/-!
# The pieces of Go the models rest on

Three things the gocassa code leans on and that every model below reuses.

**Buffered channels.** A `chan T` made with capacity `n` is its queue, oldest first, and
`n`. The queue never outgrows the capacity, and `Chan` carries that as a field, so an
over-full channel is not a value of the type. A send on a full channel and a receive on an
empty one *block*: `send?`/`recv?` answer `none` there, and a step of a model that needs
one is then simply not enabled. (A channel of capacity `0` is a rendezvous in Go; nothing
modelled here ever sends on one, so `send?` blocking outright there is exact for the states
the models reach.)

**Maps of channels.** `gocqlConnectionPool` keeps `map[string]chan *gocql.Conn`. Looking up a
missing key gives Go's *nil channel*, on which every send and receive blocks forever, so a
map is a function to `Option (Chan α)` and `recvAt?`/`sendAt?` block on `none` the same way.
`lenAt`/`capAt` are `len(m[k])`/`cap(m[k])`, which Go defines as `0` on a nil channel.

**Goroutine lists.** Every concurrent model keeps its callers as a list of program points
and lets any one of them move. What the invariants count is `countP` over that list, and
`countP_set_add` is the one fact about replacing an entry they all need, stated without the
truncated subtraction of `List.countP_set`.
-/

set_option autoImplicit false

namespace ServiceLayer
namespace Go

/-! ## 1. Buffered channels -/

/-- A buffered Go channel: what is queued in it, oldest first, and the capacity `make` gave
    it. The queue never holds more than the capacity. -/
structure Chan (α : Type) where
  buf : List α
  cap : Nat
  bounded : buf.length ≤ cap

namespace Chan

variable {α : Type}

/-- `make(chan T, n)`. -/
def make (n : Nat) : Chan α := ⟨[], n, Nat.zero_le n⟩

/-- `make(chan T, n)` followed by `n` sends of `a`, the loop `init` runs on every
    unestablished queue. -/
def full (n : Nat) (a : α) : Chan α := ⟨List.replicate n a, n, by simp⟩

/-- `ch <- a`: completes while the queue has room, and blocks (`none`) when it is full. -/
def send? (ch : Chan α) (a : α) : Option (Chan α) :=
  if h : ch.buf.length < ch.cap then
    some ⟨ch.buf ++ [a], ch.cap, by simp only [List.length_append, List.length_singleton]; omega⟩
  else none

/-- `<-ch`: the oldest queued value, or blocks (`none`) when nothing is queued. -/
def recv? : Chan α → Option (α × Chan α)
  | ⟨a :: rest, cap, h⟩ => some (a, ⟨rest, cap, by simp only [List.length_cons] at h; omega⟩)
  | ⟨[], _, _⟩ => none

theorem send?_eq_some {ch ch' : Chan α} {a : α} (h : ch.send? a = some ch') :
    ch.buf.length < ch.cap ∧ ch'.buf = ch.buf ++ [a] ∧ ch'.cap = ch.cap := by
  unfold send? at h
  split at h
  · cases h; exact ⟨‹_›, rfl, rfl⟩
  · cases h

theorem send?_isSome {ch : Chan α} {a : α} : (ch.send? a).isSome ↔ ch.buf.length < ch.cap := by
  unfold send?
  split <;> simp [*]

theorem recv?_eq_some {ch ch' : Chan α} {a : α} (h : ch.recv? = some (a, ch')) :
    ch.buf = a :: ch'.buf ∧ ch'.cap = ch.cap := by
  obtain ⟨_ | ⟨b, rest⟩, cap, hb⟩ := ch
  · cases h
  · simp only [recv?, Option.some.injEq, Prod.mk.injEq] at h
    obtain ⟨rfl, rfl⟩ := h
    exact ⟨rfl, rfl⟩

theorem recv?_eq_none {ch : Chan α} : ch.recv? = none ↔ ch.buf = [] := by
  obtain ⟨_ | ⟨b, rest⟩, cap, hb⟩ := ch <;> simp [recv?]

end Chan

/-! ## 2. Maps of channels -/

section ChanMap

variable {κ α : Type}

/-- `<-m[k]`. A missing key is the nil channel, which blocks forever. -/
def recvAt? [DecidableEq κ] (m : κ → Option (Chan α)) (k : κ) :
    Option (α × (κ → Option (Chan α))) :=
  match m k with
  | some ch => ch.recv?.map fun r => (r.1, Function.update m k (some r.2))
  | none => none

/-- `m[k] <- a`. A missing key is the nil channel, which blocks forever. -/
def sendAt? [DecidableEq κ] (m : κ → Option (Chan α)) (k : κ) (a : α) :
    Option (κ → Option (Chan α)) :=
  match m k with
  | some ch => (ch.send? a).map fun ch' => Function.update m k (some ch')
  | none => none

/-- `len(m[k])`: `0` on the nil channel. -/
def lenAt (m : κ → Option (Chan α)) (k : κ) : Nat :=
  match m k with
  | some ch => ch.buf.length
  | none => 0

/-- `cap(m[k])`: `0` on the nil channel. -/
def capAt (m : κ → Option (Chan α)) (k : κ) : Nat :=
  match m k with
  | some ch => ch.cap
  | none => 0

/-- How many of the values queued in `m[k]` are `a`. -/
def countAt [DecidableEq α] (m : κ → Option (Chan α)) (k : κ) (a : α) : Nat :=
  match m k with
  | some ch => ch.buf.count a
  | none => 0

theorem lenAt_le_capAt (m : κ → Option (Chan α)) (k : κ) : lenAt m k ≤ capAt m k := by
  unfold lenAt capAt
  split
  · exact Chan.bounded _
  · exact le_rfl

/-- A send on `m[k]` is enabled exactly when that channel has room; on the nil channel
    `0 < 0` fails, as it should. -/
theorem sendAt?_isSome [DecidableEq κ] (m : κ → Option (Chan α)) (k : κ) (a : α) :
    (sendAt? m k a).isSome ↔ lenAt m k < capAt m k := by
  unfold sendAt? lenAt capAt
  split
  · simp [Chan.send?_isSome]
  · simp

theorem recvAt?_isSome [DecidableEq κ] (m : κ → Option (Chan α)) (k : κ) :
    (recvAt? m k).isSome ↔ 0 < lenAt m k := by
  unfold recvAt? lenAt
  split
  · rename_i ch _
    obtain ⟨_ | ⟨b, rest⟩, cap, hb⟩ := ch <;> simp [Chan.recv?]
  · simp

theorem recvAt?_eq_some [DecidableEq κ] {m m' : κ → Option (Chan α)} {k : κ} {a : α}
    (h : recvAt? m k = some (a, m')) :
    ∃ ch ch', m k = some ch ∧ ch.recv? = some (a, ch') ∧ m' = Function.update m k (some ch') := by
  unfold recvAt? at h
  split at h
  · rename_i ch hk
    cases hr : ch.recv? with
    | none => simp [hr] at h
    | some r =>
      simp only [hr, Option.map_some', Option.some.injEq, Prod.mk.injEq] at h
      obtain ⟨rfl, rfl⟩ := h
      exact ⟨ch, r.2, hk, by rw [hr], rfl⟩
  · cases h

theorem sendAt?_eq_some [DecidableEq κ] {m m' : κ → Option (Chan α)} {k : κ} {a : α}
    (h : sendAt? m k a = some m') :
    ∃ ch ch', m k = some ch ∧ ch.send? a = some ch' ∧ m' = Function.update m k (some ch') := by
  unfold sendAt? at h
  split at h
  · rename_i ch hk
    cases hs : ch.send? a with
    | none => simp [hs] at h
    | some ch' =>
      simp only [hs, Option.map_some', Option.some.injEq] at h
      exact ⟨ch, ch', hk, hs, h.symm⟩
  · cases h

/-- A receive takes one value off `m[k]` and touches no other key. -/
theorem recvAt?_lenAt [DecidableEq κ] {m m' : κ → Option (Chan α)} {k : κ} {a : α}
    (h : recvAt? m k = some (a, m')) (k' : κ) :
    lenAt m' k' + (if k' = k then 1 else 0) = lenAt m k' := by
  obtain ⟨ch, ch', hk, hr, rfl⟩ := recvAt?_eq_some h
  obtain ⟨hb, -⟩ := Chan.recv?_eq_some hr
  by_cases e : k' = k
  · subst e; simp [lenAt, hk, hb]
  · simp [lenAt, Function.update_noteq e, e]

/-- A send puts one value on `m[k]` and touches no other key. -/
theorem sendAt?_lenAt [DecidableEq κ] {m m' : κ → Option (Chan α)} {k : κ} {a : α}
    (h : sendAt? m k a = some m') (k' : κ) :
    lenAt m' k' = lenAt m k' + (if k' = k then 1 else 0) := by
  obtain ⟨ch, ch', hk, hs, rfl⟩ := sendAt?_eq_some h
  obtain ⟨-, hb, -⟩ := Chan.send?_eq_some hs
  by_cases e : k' = k
  · subst e; simp [lenAt, hk, hb]
  · simp [lenAt, Function.update_noteq e, e]

theorem recvAt?_capAt [DecidableEq κ] {m m' : κ → Option (Chan α)} {k : κ} {a : α}
    (h : recvAt? m k = some (a, m')) (k' : κ) : capAt m' k' = capAt m k' := by
  obtain ⟨ch, ch', hk, hr, rfl⟩ := recvAt?_eq_some h
  obtain ⟨-, hc⟩ := Chan.recv?_eq_some hr
  by_cases e : k' = k
  · subst e; simp [capAt, hk, hc]
  · simp [capAt, Function.update_noteq e]

theorem sendAt?_capAt [DecidableEq κ] {m m' : κ → Option (Chan α)} {k : κ} {a : α}
    (h : sendAt? m k a = some m') (k' : κ) : capAt m' k' = capAt m k' := by
  obtain ⟨ch, ch', hk, hs, rfl⟩ := sendAt?_eq_some h
  obtain ⟨-, -, hc⟩ := Chan.send?_eq_some hs
  by_cases e : k' = k
  · subst e; simp [capAt, hk, hc]
  · simp [capAt, Function.update_noteq e]

/-- A receive that blocks found the channel empty. -/
theorem lenAt_eq_zero_of_recvAt?_none [DecidableEq κ] {m : κ → Option (Chan α)} {k : κ}
    (h : recvAt? m k = none) : lenAt m k = 0 := by
  have := (recvAt?_isSome m k).not.mp (by simp [h])
  omega

/-- Right after a receive on `m[k]`, a send on it has room. -/
theorem sendAt?_isSome_of_recvAt? [DecidableEq κ] {m m' : κ → Option (Chan α)} {k : κ} {a : α}
    (h : recvAt? m k = some (a, m')) (b : α) : (sendAt? m' k b).isSome := by
  have hl := recvAt?_lenAt h k
  have := lenAt_le_capAt m k
  rw [sendAt?_isSome, recvAt?_capAt h k]
  simp only [if_true] at hl
  omega

variable [DecidableEq κ] [DecidableEq α]

theorem recvAt?_countAt {m m' : κ → Option (Chan α)} {k : κ} {a : α}
    (h : recvAt? m k = some (a, m')) (k' : κ) (b : α) :
    countAt m' k' b + (if k' = k ∧ a = b then 1 else 0) = countAt m k' b := by
  obtain ⟨ch, ch', hk, hr, rfl⟩ := recvAt?_eq_some h
  obtain ⟨hb, -⟩ := Chan.recv?_eq_some hr
  by_cases e : k' = k
  · subst e
    by_cases hab : a = b
    · subst hab; simp [countAt, hk, hb]
    · simp [countAt, hk, hb, List.count_cons, hab]
  · simp [countAt, Function.update_noteq e, e]

theorem sendAt?_countAt {m m' : κ → Option (Chan α)} {k : κ} {a : α}
    (h : sendAt? m k a = some m') (k' : κ) (b : α) :
    countAt m' k' b = countAt m k' b + (if k' = k ∧ a = b then 1 else 0) := by
  obtain ⟨ch, ch', hk, hs, rfl⟩ := sendAt?_eq_some h
  obtain ⟨-, hb, -⟩ := Chan.send?_eq_some hs
  by_cases e : k' = k
  · subst e
    by_cases hab : a = b
    · subst hab; simp [countAt, hk, hb]
    · simp [countAt, hk, hb, List.count_append, List.count_cons, hab]
  · simp [countAt, Function.update_noteq e, e]

/-- A value a receive hands out was queued there. -/
theorem recvAt?_countAt_pos {m m' : κ → Option (Chan α)} {k : κ} {a : α}
    (h : recvAt? m k = some (a, m')) : 0 < countAt m k a := by
  have := recvAt?_countAt h k a
  simp only [and_self, if_true] at this
  omega

end ChanMap

/-- Filling a map key by key, as `init`'s loop over the host list does: the keys listed get
    the value, the others keep what the map had. -/
theorem foldl_update_apply {κ β : Type} [DecidableEq κ] (ks : List κ) (v : β) (m : κ → β)
    (k : κ) : ks.foldl (fun m k => Function.update m k v) m k = if k ∈ ks then v else m k := by
  induction ks generalizing m with
  | nil => simp
  | cons k' ks ih =>
    rw [List.foldl_cons, ih]
    by_cases hk : k ∈ ks
    · simp [hk]
    · by_cases e : k = k'
      · subst e; simp
      · simp [hk, e, Function.update_noteq e]

/-! ## 3. Goroutine lists -/

section Goroutines

variable {β : Type} (p : β → Bool)

/-- Replacing the entry `a` at `i` by `b` changes a count by what `a` and `b` contribute. -/
theorem countP_set_add {l : List β} {i : Nat} {a b : β} (h : l[i]? = some a) :
    (l.set i b).countP p + (if p a then 1 else 0) = l.countP p + (if p b then 1 else 0) := by
  obtain ⟨hi, rfl⟩ := List.getElem?_eq_some_iff.mp h
  have := List.boole_getElem_le_countP p l i hi
  rw [List.countP_set p l i b hi]
  omega

/-- Two different goroutines at points satisfying `p` make a count of at least two. -/
theorem two_le_countP {l : List β} {i j : Nat} {a b : β} (hij : i ≠ j) (hi : l[i]? = some a)
    (hj : l[j]? = some b) (ha : p a) (hb : p b) : 2 ≤ l.countP p := by
  induction l generalizing i j with
  | nil => simp at hi
  | cons x xs ih =>
    have hpos {k : Nat} {c : β} (hk : xs[k]? = some c) (hc : p c) : 0 < xs.countP p :=
      List.countP_pos_iff.mpr ⟨c, List.getElem?_mem hk, hc⟩
    rw [List.countP_cons]
    rcases i with _ | i <;> rcases j with _ | j <;>
      simp only [List.getElem?_cons_zero, List.getElem?_cons_succ, Option.some.injEq] at hi hj
    · exact absurd rfl hij
    · subst hi; have := hpos hj hb; simp only [ha, if_true]; omega
    · subst hj; have := hpos hi ha; simp only [hb, if_true]; omega
    · have := ih (by omega) hi hj; omega

end Goroutines

end Go
end ServiceLayer
