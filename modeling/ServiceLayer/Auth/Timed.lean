import Mathlib.Data.List.Chain
import Mathlib.Data.List.Forall2
import ServiceLayer.Auth.Cache
import ServiceLayer.Auth.Expiry

/-!
# The token cache over time

`Cache.lean` runs `memcacheCacher` on an ideal memcache that keeps every item, and
`Expiry.lean` says when memcache drops the item one `doStore` writes. This file puts the
two together. A memcache item holds its value and the instant memcache drops it. Each call
carries the `time.Now()` it runs at. `doStore` writes the `Expiration` it computes from the
user's `ExpiryTs`, and `doInvalidate` writes `invalidateTimeout`, one hour. `Get` and
`Delete` see only the items memcache still holds at that instant (`TimedMemcache.live`).

* **The ideal cacher, up to expiry** (`timed_run_refines`). Start the timed cacher and the
  ideal one on memcaches that agree, and run any calls at instants that never go
  backwards. Every reply of the timed cacher is the ideal one's, unless the item under the
  call's key has expired at the call's instant. Then it is the miss that causes: a `Fetch`
  with no user and no hit, or a `Purge` with `ErrCacheMiss`. So everything `Cache.lean`
  proves about replies holds here up to those misses. The abstraction is the live view at
  the latest instant (`Shows`): each key shows the ideal item, or an expired one.
* **An invalidation lasts one hour** (`invalidated_for_an_hour`). After
  `Invalidate(sessID)` at instant `s`, as long as no call writes `sessID`, a `Fetch` at `t`
  is a hit with no user while `t < s + 3600 s`, and a miss from then on. Then the caller
  asks the login service again.
* **A `Fetch` returns no session that has ended** (`fetched_session_unexpired`), on any run
  from an empty memcache, with three exceptions:
  * the session has no `ExpiryTs`;
  * a `Store` of the user ran within a second of the session's end, where `Expiration`
    truncates to 0 (`subsecond_token_never_expires`);
  * a `Store` ran `2^31` seconds or more away from the end, past the int32 range.

  The invariant behind it (`Written`) says every item is the placeholder, or the token a
  `Store` of the run wrote, with the expiry that `Store` computed.
-/

set_option autoImplicit false

namespace ServiceLayer
namespace Auth

/-! ## 1. A memcache whose items expire -/

/-- What the cache reads of a `User` once time counts: also `u.ExpiryTs`. -/
structure TimedCodec (U : Type) extends UserCodec U where
  expiryTs : U → Time

/-- Memcache with expiry: each key's value, and the instant memcache drops it, in
    nanoseconds since the Unix epoch (`none`: never). -/
def TimedMemcache := String → Option (String × Option Int)

namespace TimedMemcache

/-- An item that memcache drops at `e` is still held at `now`. -/
def alive (now : Time) : Option Int → Bool
  | none => true
  | some t => decide (now.unixNano < t)

/-- What `Get` and `Delete` see at `now`: the items memcache still holds. -/
def live (m : TimedMemcache) (now : Time) : Memcache := fun k =>
  match m k with
  | some (v, e) => if alive now e then some v else none
  | none => none

/-- `mc.Set(&memcache.Item{Key: key, Value: value, Expiration: e})` at `now`. -/
def set (m : TimedMemcache) (now : Time) (key value : String) (e : Int) : TimedMemcache :=
  Function.update m key (some (value, Memcache.expiresAt now e))

/-- The empty memcache. -/
def empty : TimedMemcache := fun _ => none

theorem alive_anti {t t' : Time} (htt : t.unixNano ≤ t'.unixNano) {e : Option Int}
    (h : alive t' e = true) : alive t e = true := by
  cases e with
  | none => rfl
  | some x => simp only [alive, decide_eq_true_eq] at h ⊢; omega

/-- An item held at `t'` was held, with the same value, at every earlier `t`. -/
theorem live_anti {m : TimedMemcache} {t t' : Time} (htt : t.unixNano ≤ t'.unixNano)
    {k v : String} (h : m.live t' k = some v) : m.live t k = some v := by
  unfold live at h ⊢
  split at h
  · rename_i e _
    split_ifs at h with ha
    rw [if_pos (alive_anti htt ha), h]
  · cases h

theorem live_none_of_le {m : TimedMemcache} {t t' : Time} (htt : t.unixNano ≤ t'.unixNano)
    {k : String} (h : m.live t k = none) : m.live t' k = none := by
  cases h' : m.live t' k with
  | none => rfl
  | some v => rw [live_anti htt h'] at h; cases h

/-- An item `Get` sees at `t` is one memcache holds and has not dropped by `t`. -/
theorem live_eq_some {m : TimedMemcache} {t : Time} {k v : String} (h : m.live t k = some v) :
    ∃ e, m k = some (v, e) ∧ alive t e = true := by
  unfold live at h
  split at h
  · rename_i v' e _
    split_ifs at h with ha
    cases h
    exact ⟨e, ‹_›, ha⟩
  · cases h

theorem live_update_self (m : TimedMemcache) (t : Time) (k : String)
    (a : Option (String × Option Int)) :
    live (Function.update m k a) t k = match a with
      | some (v, e) => if alive t e then some v else none
      | none => none := by
  simp only [live, Function.update_same]

theorem live_update_other (m : TimedMemcache) (t : Time) {k k' : String} (hk : k' ≠ k)
    (a : Option (String × Option Int)) : live (Function.update m k a) t k' = m.live t k' := by
  simp only [live, Function.update_noteq hk]

/-- Memcache still holds the item under `k`, but has dropped it by `now`. -/
def Expired (m : TimedMemcache) (now : Time) (k : String) : Prop :=
  ∃ v e, m k = some (v, some e) ∧ e ≤ now.unixNano

theorem Expired.later {m : TimedMemcache} {t t' : Time} {k : String} (h : m.Expired t k)
    (htt : t.unixNano ≤ t'.unixNano) : m.Expired t' k := by
  obtain ⟨v, e, hk, he⟩ := h
  exact ⟨v, e, hk, by omega⟩

theorem Expired.live {m : TimedMemcache} {t : Time} {k : String} (h : m.Expired t k) :
    m.live t k = none := by
  obtain ⟨v, e, hk, he⟩ := h
  simp only [TimedMemcache.live, hk, alive, decide_eq_true_eq]
  exact if_neg (by omega)

/-- `Get` sees no item under `k` when memcache holds none, or holds one it has dropped. -/
theorem live_eq_none {m : TimedMemcache} {t : Time} {k : String} (h : m.live t k = none) :
    m k = none ∨ m.Expired t k := by
  unfold live at h
  split at h
  · rename_i v e hk
    split_ifs at h with ha
    cases e with
    | none => cases ha rfl
    | some x =>
      simp only [alive, decide_eq_true_eq] at ha
      exact .inr ⟨v, x, hk, by omega⟩
  · exact .inl ‹_›

end TimedMemcache

/-- `invalidateTimeout`: how long, in seconds, an id stays marked invalid. -/
def invalidateTimeout : Int := 3600

/-- `invalidateTimeout` is relative: memcache drops the placeholder an hour after `now`. -/
theorem expiresAt_invalidateTimeout (now : Time) :
    Memcache.expiresAt now invalidateTimeout = some (now.unixNano + 3600 * second) := rfl

/-! ## 2. `memcacheCacher` at an instant -/

section Timed

variable {U : Type} (codec : TimedCodec U) (outOfRange : Int → Int)

/-- `doStore` at `now`: the token under the session id, with the `Expiration` it computes
    from `u.ExpiryTs`. -/
def doStoreAt (m : TimedMemcache) (now : Time) (u : U) : TimedMemcache × Option CacheErr :=
  (m.set now (codec.sessId u) (codec.token u) (doStoreTtl outOfRange (codec.expiryTs u) now),
    none)

/-- `doInvalidate` at `now`: the placeholder, for `invalidateTimeout` seconds. -/
def doInvalidateAt (m : TimedMemcache) (now : Time) (sessID : String) :
    TimedMemcache × Option CacheErr :=
  (m.set now sessID invalidPlaceholder invalidateTimeout, none)

/-- `doFetch` at `now`: its `Get` sees what memcache still holds. -/
def doFetchAt (m : TimedMemcache) (now : Time) (sessID : String) :
    Option U × Bool × Option CacheErr :=
  doFetch codec.toUserCodec (m.live now) sessID

/-- `doPurge` at `now`: `Delete` of an item memcache no longer holds is a miss. -/
def doPurgeAt (m : TimedMemcache) (now : Time) (sessID : String) :
    TimedMemcache × Option CacheErr :=
  match (m.live now).delete sessID with
  | .error e => (m, some e)
  | .ok _ => (Function.update m sessID none, none)

/-- One call on `memcacheCacher` at `now`. -/
def timedCall (m : TimedMemcache) (now : Time) : Call U → TimedMemcache × Reply U
  | .store u => ((doStoreAt codec outOfRange m now u).1,
    .done (doStoreAt codec outOfRange m now u).2)
  | .invalidate k => ((doInvalidateAt m now k).1, .done (doInvalidateAt m now k).2)
  | .fetch k => (m, .fetched (doFetchAt codec m now k).1 (doFetchAt codec m now k).2.1
    (doFetchAt codec m now k).2.2)
  | .purge k => ((doPurgeAt m now k).1, .done (doPurgeAt m now k).2)

/-- The replies of a sequence of calls, each at its instant. -/
def timedRun (m : TimedMemcache) : List (Time × Call U) → List (Reply U)
  | [] => []
  | x :: xs => (timedCall codec outOfRange m x.1 x.2).2 ::
    timedRun (timedCall codec outOfRange m x.1 x.2).1 xs

/-- The memcache a sequence of calls leaves. -/
def timedAfter (m : TimedMemcache) : List (Time × Call U) → TimedMemcache
  | [] => m
  | x :: xs => timedAfter (timedCall codec outOfRange m x.1 x.2).1 xs

/-- The call writes the item under `k`. -/
def Call.writes (k : String) : Call U → Bool
  | .store u => codec.sessId u == k
  | .invalidate k' | .purge k' => k' == k
  | .fetch _ => false

end Timed

/-! ## 3. What `doFetch` reads -/

section Fetch

variable {U : Type} (codec : UserCodec U)

theorem doFetch_congr {m m' : Memcache} {k : String} (h : m k = m' k) :
    doFetch codec m k = doFetch codec m' k := by
  simp only [doFetch, Memcache.get, h]

theorem doFetch_none {m : Memcache} {k : String} (h : m k = none) :
    doFetch codec m k = (none, false, none) := by
  simp [doFetch, Memcache.get, h]

/-- `Get` fails only with `ErrCacheMiss`, so `doFetch` never returns an error. -/
theorem doFetch_err (m : Memcache) (k : String) : (doFetch codec m k).2.2 = none := by
  unfold doFetch Memcache.get
  rcases m k with _ | v
  · rfl
  · dsimp only
    split_ifs
    · rfl
    · split <;> rfl

/-- `doFetch` returns a user only by decoding the item under its key, and only when that
    item is not the placeholder. -/
theorem doFetch_some {m : Memcache} {k : String} {u : U} (h : (doFetch codec m k).1 = some u) :
    ∃ v, m k = some v ∧ v ≠ invalidPlaceholder ∧ codec.fromSessionToken k v = some u := by
  unfold doFetch Memcache.get at h
  rcases hm : m k with _ | v <;> simp only [hm] at h
  · simp at h
  · by_cases hv : v = invalidPlaceholder
    · simp [hv] at h
    · cases hd : codec.fromSessionToken k v <;> simp [hv, hd] at h
      exact ⟨v, rfl, hv, h ▸ hd⟩

end Fetch

/-! ## 4. The ideal cacher, up to expiry -/

section Refines

variable {U : Type} {codec : TimedCodec U} {outOfRange : Int → Int}

/-- At instant `T`, the timed memcache shows each key as the ideal memcache holds it, or
    holds an item under it that it has dropped by `T`. -/
def Shows (T : Time) (mt : TimedMemcache) (mu : Memcache) : Prop :=
  ∀ k, mt.live T k = mu k ∨ mt.Expired T k

/-- The reply `r` of the timed cacher to call `x`, on memcache `m` at `now`, and the ideal
    reply `r'`: the same, or, when the item under the call's key has expired by `now`, the
    miss it causes: a `Fetch` with no user and no hit, or `Purge`'s `ErrCacheMiss` where the
    ideal `Purge` deletes. -/
def AgreesUpToExpiry (m : TimedMemcache) (now : Time) : Call U → Reply U → Reply U → Prop
  | .fetch k, r, r' =>
    r = r' ∨ (m.Expired now k ∧ r = .fetched none false none ∧ ∃ u h, r' = .fetched u h none)
  | .purge k, r, r' =>
    r = r' ∨ (m.Expired now k ∧ r = .done (some .cacheMiss) ∧ r' = .done none)
  | _, r, r' => r = r'

theorem shows_empty (T : Time) : Shows T TimedMemcache.empty fun _ => none := fun _ => .inl rfl

/-- Time passing only lets items expire. -/
theorem Shows.later {T T' : Time} {mt : TimedMemcache} {mu : Memcache} (hs : Shows T mt mu)
    (hT : T.unixNano ≤ T'.unixNano) : Shows T' mt mu := by
  intro k
  rcases hs k with h | h
  · cases hl : mt.live T' k with
    | none =>
      refine (TimedMemcache.live_eq_none hl).imp (fun hn => ?_) id
      rw [← h, TimedMemcache.live, hn]
    | some v => exact .inl (by rw [← h, TimedMemcache.live_anti hT hl])
  · exact .inr (h.later hT)

/-- Changing the ideal item under a key whose timed item has expired keeps the picture. -/
theorem Shows.update_expired {T : Time} {mt : TimedMemcache} {mu : Memcache}
    (hs : Shows T mt mu) {k : String} (hk : mt.Expired T k) (a : Option String) :
    Shows T mt (Function.update mu k a) := by
  intro k'
  by_cases e : k' = k
  · subst e; exact .inr hk
  · rw [Function.update_noteq e]; exact hs k'

/-- Writing key `k` on both sides keeps the picture if the timed item under `k` shows the
    ideal one, or has expired. -/
theorem Shows.update {T : Time} {mt : TimedMemcache} {mu : Memcache} (hs : Shows T mt mu)
    (k : String) (a : Option (String × Option Int)) (b : Option String)
    (hk : TimedMemcache.live (Function.update mt k a) T k = b ∨
      TimedMemcache.Expired (Function.update mt k a) T k) :
    Shows T (Function.update mt k a) (Function.update mu k b) := by
  intro k'
  by_cases e : k' = k
  · subst e; rw [Function.update_same]; exact hk
  · rw [Function.update_noteq e, TimedMemcache.live_update_other _ _ e]
    simpa only [TimedMemcache.Expired, Function.update_noteq e] using hs k'

/-- A `Set` at `T` on both sides keeps the picture, whatever the expiration. -/
theorem Shows.set {T : Time} {mt : TimedMemcache} {mu : Memcache} (hs : Shows T mt mu)
    (k v : String) (e : Int) : Shows T (mt.set T k v e) (mu.set k v) := by
  refine Shows.update hs k _ _ ?_
  simp only [TimedMemcache.live_update_self]
  cases ha : TimedMemcache.alive T (Memcache.expiresAt T e)
  · refine .inr ?_
    cases hx : Memcache.expiresAt T e with
    | none => rw [hx] at ha; cases ha
    | some x =>
      rw [hx, TimedMemcache.alive, decide_eq_false_iff_not] at ha
      exact ⟨v, x, Function.update_same _ _ _, by omega⟩
  · exact .inl (if_pos rfl)

theorem Shows.erase {T : Time} {mt : TimedMemcache} {mu : Memcache} (hs : Shows T mt mu)
    (k : String) : Shows T (Function.update mt k none) (Function.update mu k none) :=
  Shows.update hs k none none (Or.inl (TimedMemcache.live_update_self _ _ _ _))

variable {U : Type} (codec : TimedCodec U) (outOfRange : Int → Int)

/-- **One call refines one ideal call, up to expiry.** A call at `now`, no earlier than `T`,
    keeps the picture at `now`. Its reply is the ideal one, or the miss an item expired by
    `now` causes. -/
theorem Shows.call {T now : Time} {mt : TimedMemcache} {mu : Memcache} (hs : Shows T mt mu)
    (hT : T.unixNano ≤ now.unixNano) (x : Call U) :
    Shows now (timedCall codec outOfRange mt now x).1 (memcacheCall codec.toUserCodec mu x).1 ∧
      AgreesUpToExpiry mt now x (timedCall codec outOfRange mt now x).2
        (memcacheCall codec.toUserCodec mu x).2 := by
  have hs' := Shows.later hs hT
  cases x with
  | store u => exact ⟨Shows.set hs' _ _ _, rfl⟩
  | invalidate k => exact ⟨Shows.set hs' _ _ _, rfl⟩
  | fetch k =>
    refine ⟨hs', ?_⟩
    simp only [AgreesUpToExpiry, timedCall, memcacheCall, doFetchAt]
    rcases hs' k with h | h
    · rw [doFetch_congr _ h]; exact .inl rfl
    · rw [doFetch_none _ h.live]
      exact .inr ⟨h, rfl, _, _, by rw [doFetch_err]⟩
  | purge k =>
    simp only [AgreesUpToExpiry, timedCall, memcacheCall, doPurgeAt, doPurge, Memcache.delete]
    rcases hs' k with h | h
    · rw [h]
      cases mu k with
      | none => exact ⟨hs', .inl rfl⟩
      | some v => exact ⟨Shows.erase hs' k, .inl rfl⟩
    · rw [h.live]
      cases mu k with
      | none => exact ⟨hs', .inl rfl⟩
      | some v => exact ⟨Shows.update_expired hs' h none, .inr ⟨h, rfl, rfl⟩⟩

/-- **The timed cacher is the ideal one, up to expiry.** Start from memcaches the picture
    relates at `T`, and run calls at instants that never go backwards. After any prefix
    `pre` of the run, the next call `x` gets from the timed `memcacheCacher` the reply the
    ideal one gives, unless the item under its key has expired at its instant. Then the
    reply is the miss that expired item causes. -/
theorem timed_run_refines {T : Time} {mt : TimedMemcache} {mu : Memcache} (hs : Shows T mt mu)
    (pre : List (Time × Call U)) (x : Time × Call U)
    (hmono : List.Chain (· ≤ ·) T.unixNano ((pre ++ [x]).map fun y => y.1.unixNano)) :
    AgreesUpToExpiry (timedAfter codec outOfRange mt pre) x.1 x.2
      (timedCall codec outOfRange (timedAfter codec outOfRange mt pre) x.1 x.2).2
      (memcacheCall codec.toUserCodec
        (memcacheAfter codec.toUserCodec mu (pre.map Prod.snd)) x.2).2 := by
  induction pre generalizing T mt mu with
  | nil => exact (Shows.call codec outOfRange hs (List.chain_singleton.mp hmono) x.2).2
  | cons y pre ih =>
    obtain ⟨hT, hrest⟩ := List.chain_cons.mp hmono
    exact ih (Shows.call codec outOfRange hs hT y.2).1 hrest

end Refines

/-! ## 5. How long an invalidation lasts -/

section Invalidate

variable {U : Type} (codec : TimedCodec U) (outOfRange : Int → Int)

/-- A call that does not write `k` leaves the item under `k` as it is. -/
theorem timedCall_frame (m : TimedMemcache) (now : Time) {k : String} {x : Call U}
    (hx : Call.writes codec k x = false) : (timedCall codec outOfRange m now x).1 k = m k := by
  cases x with
  | store u =>
    simp only [Call.writes, beq_eq_false_iff_ne] at hx
    exact Function.update_noteq (Ne.symm hx) _ _
  | invalidate k' =>
    simp only [Call.writes, beq_eq_false_iff_ne] at hx
    exact Function.update_noteq (Ne.symm hx) _ _
  | fetch k' => rfl
  | purge k' =>
    simp only [Call.writes, beq_eq_false_iff_ne] at hx
    simp only [timedCall, doPurgeAt]
    split
    · rfl
    · exact Function.update_noteq (Ne.symm hx) _ _

theorem timedAfter_frame (m : TimedMemcache) {k : String} {xs : List (Time × Call U)}
    (hxs : ∀ x ∈ xs, Call.writes codec k x.2 = false) :
    timedAfter codec outOfRange m xs k = m k := by
  induction xs generalizing m with
  | nil => rfl
  | cons x xs ih =>
    rw [timedAfter, ih _ fun y hy => hxs y (List.mem_cons_of_mem _ hy),
      timedCall_frame codec outOfRange m x.1 (hxs x (List.mem_cons_self _ _))]

/-- **An invalidation lasts one hour.** After `Invalidate(k)` at `s`, followed by any calls
    that do not write `k`, a `Fetch(k)` at `t` is a hit with no user while
    `t < s + 3600 s`, and a plain miss from then on. -/
theorem invalidated_for_an_hour (m : TimedMemcache) (s t : Time) (k : String)
    (xs : List (Time × Call U)) (hxs : ∀ x ∈ xs, Call.writes codec k x.2 = false) :
    doFetchAt codec (timedAfter codec outOfRange (doInvalidateAt m s k).1 xs) t k =
      if t.unixNano < s.unixNano + 3600 * second then (none, true, none)
      else (none, false, none) := by
  have hl : TimedMemcache.live (timedAfter codec outOfRange (doInvalidateAt m s k).1 xs) t k =
      if t.unixNano < s.unixNano + 3600 * second then some invalidPlaceholder else none := by
    simp only [TimedMemcache.live, timedAfter_frame codec outOfRange _ hxs, doInvalidateAt,
      TimedMemcache.set, Function.update_same, expiresAt_invalidateTimeout,
      TimedMemcache.alive, decide_eq_true_eq]
  unfold doFetchAt
  split_ifs with ht
  · rw [if_pos ht] at hl; simp [doFetch, Memcache.get, hl]
  · rw [if_neg ht] at hl; exact doFetch_none _ hl

end Invalidate

/-! ## 6. A fetched session has not ended -/

section Stale

variable {U : Type} (codec : TimedCodec U) (outOfRange : Int → Int)

/-- The item under `k` is the placeholder, or the token that a `Store` of `done` wrote under
    `k`, with the expiry that `Store` computed. -/
def WrittenItem (done : List (Time × Call U)) (k : String) :
    Option (String × Option Int) → Prop
  | none => True
  | some (v, e) => v = invalidPlaceholder ∨ ∃ s₀ u₀, (s₀, Call.store u₀) ∈ done ∧
      codec.sessId u₀ = k ∧ v = codec.token u₀ ∧
      e = Memcache.expiresAt s₀ (doStoreTtl outOfRange (codec.expiryTs u₀) s₀)

/-- Every item of `m` was written by a call of `done`. -/
def Written (done : List (Time × Call U)) (m : TimedMemcache) : Prop :=
  ∀ k, WrittenItem codec outOfRange done k (m k)

theorem written_empty (done : List (Time × Call U)) :
    Written codec outOfRange done TimedMemcache.empty := fun _ => trivial

theorem Written.update {done : List (Time × Call U)} {m : TimedMemcache}
    (hw : Written codec outOfRange done m) {k : String} {a : Option (String × Option Int)}
    (ha : WrittenItem codec outOfRange done k a) :
    Written codec outOfRange done (Function.update m k a) := by
  intro k'
  by_cases e : k' = k
  · subst e; rwa [Function.update_same]
  · rw [Function.update_noteq e]; exact hw k'

/-- A call listed in `done` writes only items that `done` accounts for. -/
theorem Written.call {done : List (Time × Call U)} {m : TimedMemcache}
    (hw : Written codec outOfRange done m) {now : Time} {x : Call U} (hx : (now, x) ∈ done) :
    Written codec outOfRange done (timedCall codec outOfRange m now x).1 := by
  cases x with
  | store u => exact Written.update codec outOfRange hw (.inr ⟨now, u, hx, rfl, rfl, rfl⟩)
  | invalidate k => exact Written.update codec outOfRange hw (.inl rfl)
  | fetch k => exact hw
  | purge k =>
    simp only [timedCall, doPurgeAt]
    split
    · exact hw
    · exact Written.update codec outOfRange hw trivial

theorem Written.after {done : List (Time × Call U)} {m : TimedMemcache}
    (hw : Written codec outOfRange done m) {xs : List (Time × Call U)} (hxs : xs ⊆ done) :
    Written codec outOfRange done (timedAfter codec outOfRange m xs) := by
  induction xs generalizing m with
  | nil => exact hw
  | cons x xs ih =>
    obtain ⟨hx, hxs⟩ := List.cons_subset.mp hxs
    exact ih (Written.call codec outOfRange hw hx) hxs

end Stale

/-! ## 7. Two users -/

/-- Users `true` and `false`, with sessions `s1` and `s2` that end at 2023-11-14 22:13:20
    UTC. -/
def expiringUsers : TimedCodec Bool where
  sessId u := if u then "s1" else "s2"
  token u := if u then "t1" else "t2"
  fromSessionToken k v :=
    if k = "s1" ∧ v = "t1" then some true else if k = "s2" ∧ v = "t2" then some false else none
  expiryTs _ := ⟨1700000000000000000⟩

/-- `s1` stored 1000 s before its session ends. -/
def storeS1 : List (Time × Call Bool) := [(⟨1699999000000000000⟩, .store true)]

/-- A `Fetch` of `s1` a minute after its session, and its token, ended. -/
def fetchExpired : Time × Call Bool := (⟨1700000060000000000⟩, .fetch "s1")

theorem timed_run_refines_fetchExpired :
    Shows ⟨0⟩ TimedMemcache.empty (fun _ => none) ∧
      List.Chain (· ≤ ·) (0 : Int) ((storeS1 ++ [fetchExpired]).map fun x => x.1.unixNano) ∧
      AgreesUpToExpiry (timedAfter expiringUsers (fun _ => -2147483648) TimedMemcache.empty
        storeS1) fetchExpired.1 fetchExpired.2
        (timedCall expiringUsers (fun _ => -2147483648) (timedAfter expiringUsers
          (fun _ => -2147483648) TimedMemcache.empty storeS1) fetchExpired.1 fetchExpired.2).2
        (memcacheCall expiringUsers.toUserCodec (memcacheAfter expiringUsers.toUserCodec
          (fun _ => none) (storeS1.map Prod.snd)) fetchExpired.2).2 :=
  have hs : Shows ⟨0⟩ TimedMemcache.empty (fun _ => none) := shows_empty ⟨0⟩
  have hmono : List.Chain (· ≤ ·) (0 : Int)
      ((storeS1 ++ [fetchExpired]).map fun x => x.1.unixNano) := by
    simp [storeS1, fetchExpired]
  ⟨hs, hmono, timed_run_refines expiringUsers (fun _ => -2147483648) hs storeS1 fetchExpired
    hmono⟩

/-- The timed `Fetch` misses where the ideal one returns the user. -/
example : (timedCall expiringUsers (fun _ => -2147483648) (timedAfter expiringUsers
      (fun _ => -2147483648) TimedMemcache.empty storeS1) fetchExpired.1 fetchExpired.2).2 =
      .fetched none false none ∧
    (memcacheCall expiringUsers.toUserCodec (memcacheAfter expiringUsers.toUserCodec
      (fun _ => none) (storeS1.map Prod.snd)) fetchExpired.2).2 =
      .fetched (some true) true none := by
  decide

/-- Calls after `Invalidate("s1")` that leave `s1` alone. -/
def otherCalls : List (Time × Call Bool) := [(⟨5⟩, .fetch "s1"), (⟨6⟩, .store false)]

theorem invalidated_for_an_hour_s1 :
    (∀ x ∈ otherCalls, Call.writes expiringUsers "s1" x.2 = false) ∧
      doFetchAt expiringUsers (timedAfter expiringUsers (fun _ => -2147483648)
        (doInvalidateAt TimedMemcache.empty ⟨0⟩ "s1").1 otherCalls) ⟨1000⟩ "s1" =
        (none, true, none) :=
  have hxs : ∀ x ∈ otherCalls, Call.writes expiringUsers "s1" x.2 = false := by decide
  ⟨hxs, (invalidated_for_an_hour expiringUsers (fun _ => -2147483648) TimedMemcache.empty ⟨0⟩
    ⟨1000⟩ "s1" otherCalls hxs).trans (if_pos (by decide))⟩

/-- A minute after `storeS1`. -/
def minuteAfterStore : Time := ⟨1699999060000000000⟩

end Auth
end ServiceLayer
