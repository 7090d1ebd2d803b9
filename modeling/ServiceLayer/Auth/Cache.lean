import Mathlib.Logic.Function.Basic

/-!
# The token cache, and the test double the auth tests use in its place

`auth/cache.go` keeps session tokens in memcache behind the `Cacher` interface:
`memcacheCacher` stores a user's token under its session id, marks an id invalid by storing
the placeholder `"invalid"`, fetches and decodes, and purges with `Delete`. The auth tests
use `testCache` (`auth/cache_test.go`) in its place: a map of users and a set of invalidated
ids.

The memcache here is an ideal one: a key-value map with no expiry within a run, no eviction
and no transport error. When memcache drops the item `doStore` writes is the subject of
`Auth/Expiry.lean`. `Get` and `Delete` of an absent key report `ErrCacheMiss`, as
gomemcache does. `User` and `FromSessionToken` are defined outside this package's files, so
a user is whatever `UserCodec` says: its session id, its token, and the decoder.

The two cachers do not agree on every sequence of calls. `purge_absent_diverges`: `Purge` of
an id the cache does not hold returns `ErrCacheMiss` from `memcacheCacher`, although its doc
comment says that such a purge "will be classed as success", and `nil` from the test double.
`store_after_invalidate_diverges`: `Store` over an invalidated id overwrites the placeholder
in memcache, but the test double keeps the id invalidated, so the next `Fetch` differs.

These are the only two ways they part (`run_agrees`, `untame_diverges`). Map the test
double to the memcache contents it stands for (`TestCache.encode`), and call a call *tame*
if it is neither of the two above. Then, when every decoded token gives its user back and no
token is the placeholder, the two give the same replies along every run of tame calls. The
first call that is not tame makes them differ with the replies above: on that `Purge`, or on
the next `Fetch` of the stored id.
-/

set_option autoImplicit false

namespace ServiceLayer
namespace Auth

/-! ## 1. Memcache, users, calls -/

/-- The errors the two cachers return: gomemcache's `ErrCacheMiss`, and the test double's
    `errors.New("Simulated failure")`. -/
inductive CacheErr where
  | cacheMiss
  | simulatedFailure
  deriving DecidableEq, Repr

/-- An ideal memcache: the value under each key. -/
def Memcache := String → Option String

namespace Memcache

/-- `mc.Get(key)`: the value, or `ErrCacheMiss`. -/
def get (m : Memcache) (key : String) : Except CacheErr String :=
  match m key with
  | some v => .ok v
  | none => .error .cacheMiss

/-- `mc.Set(&memcache.Item{Key: key, Value: value, ...})`. The expiration is left out: the
    ideal memcache keeps every item for the run. -/
def set (m : Memcache) (key value : String) : Memcache := Function.update m key (some value)

/-- `mc.Delete(key)`: removes the key, or reports `ErrCacheMiss` when it is absent. -/
def delete (m : Memcache) (key : String) : Except CacheErr Memcache :=
  match m key with
  | some _ => .ok (Function.update m key none)
  | none => .error .cacheMiss

end Memcache

/-- What the cache reads of a `User`: `u.SessId`, `u.Token`, and `FromSessionToken`, which
    decodes a session id and a token into a user or fails (`none`). -/
structure UserCodec (U : Type) where
  sessId : U → String
  token : U → String
  fromSessionToken : String → String → Option U

/-- A call on a `Cacher`. -/
inductive Call (U : Type) where
  | store (u : U)
  | invalidate (sessID : String)
  | fetch (sessID : String)
  | purge (sessID : String)

/-- What a call returns: the error of `Store`, `Invalidate` or `Purge`, or the
    `(u, cacheHit, err)` of `Fetch`. -/
inductive Reply (U : Type) where
  | done (err : Option CacheErr)
  | fetched (u : Option U) (cacheHit : Bool) (err : Option CacheErr)
  deriving DecidableEq, Repr

/-! ## 2. `memcacheCacher` -/

/-- `invalidPlaceholder`. -/
def invalidPlaceholder : String := "invalid"

section Memcacher

variable {U : Type} (codec : UserCodec U)

/-- `doStore`: the token under the session id. -/
def doStore (m : Memcache) (u : U) : Memcache × Option CacheErr :=
  (m.set (codec.sessId u) (codec.token u), none)

/-- `doInvalidate`: the placeholder under the session id. -/
def doInvalidate (m : Memcache) (sessID : String) : Memcache × Option CacheErr :=
  (m.set sessID invalidPlaceholder, none)

/-- `doFetch`: a miss is no error; the placeholder is a hit with no user; a token that does
    not decode is treated as a miss. -/
def doFetch (m : Memcache) (sessID : String) : Option U × Bool × Option CacheErr :=
  match m.get sessID with
  | .error e => if e = .cacheMiss then (none, false, none) else (none, false, some e)
  | .ok v =>
    if v = invalidPlaceholder then (none, true, none)
    else
      match codec.fromSessionToken sessID v with
      | none => (none, false, none)
      | some u => (some u, true, none)

/-- `doPurge`: `Delete`'s error, if any. -/
def doPurge (m : Memcache) (sessID : String) : Memcache × Option CacheErr :=
  match m.delete sessID with
  | .error e => (m, some e)
  | .ok m' => (m', none)

/-- One call on `memcacheCacher` (`Store`, `Invalidate`, `Fetch` and `Purge` return what
    their `do` functions return). -/
def memcacheCall (m : Memcache) : Call U → Memcache × Reply U
  | .store u => ((doStore codec m u).1, .done (doStore codec m u).2)
  | .invalidate k => ((doInvalidate m k).1, .done (doInvalidate m k).2)
  | .fetch k =>
    (m, .fetched (doFetch codec m k).1 (doFetch codec m k).2.1 (doFetch codec m k).2.2)
  | .purge k => ((doPurge m k).1, .done (doPurge m k).2)

/-- The replies of a sequence of calls. -/
def memcacheRun (m : Memcache) : List (Call U) → List (Reply U)
  | [] => []
  | x :: xs => (memcacheCall codec m x).2 :: memcacheRun (memcacheCall codec m x).1 xs

/-- The memcache a sequence of calls leaves. -/
def memcacheAfter (m : Memcache) : List (Call U) → Memcache
  | [] => m
  | x :: xs => memcacheAfter (memcacheCall codec m x).1 xs

end Memcacher

/-! ## 3. `testCache` -/

/-- `testCache`: the stored users, the invalidated ids (a `map[string]bool` that only ever
    holds `true`), and whether every call fails. -/
structure TestCache (U : Type) where
  users : String → Option U
  invalidated : String → Bool
  failure : Bool

namespace TestCache

variable {U : Type} (codec : UserCodec U)

/-- `newTestCache()`. -/
def new : TestCache U := ⟨fun _ => none, fun _ => false, false⟩

/-- `if _, ok := c.users[k]; ok { delete(c.users, k) }`. -/
def deleteUser (users : String → Option U) (k : String) : String → Option U :=
  match users k with
  | some _ => Function.update users k none
  | none => users

/-- `Store`. -/
def store (c : TestCache U) (u : U) : TestCache U × Option CacheErr :=
  if c.failure then (c, some .simulatedFailure)
  else ({ c with users := Function.update c.users (codec.sessId u) (some u) }, none)

/-- `Invalidate`. -/
def invalidate (c : TestCache U) (sessID : String) : TestCache U × Option CacheErr :=
  if c.failure then (c, some .simulatedFailure)
  else
    ({ c with invalidated := Function.update c.invalidated sessID true,
              users := deleteUser c.users sessID }, none)

/-- `Fetch`. -/
def fetch (c : TestCache U) (sessID : String) : Option U × Bool × Option CacheErr :=
  if c.failure then (none, false, some .simulatedFailure)
  else if c.invalidated sessID then (none, true, none)
  else
    match c.users sessID with
    | some u => (some u, true, none)
    | none => (none, false, none)

/-- `Purge`. -/
def purge (c : TestCache U) (sessID : String) : TestCache U × Option CacheErr :=
  if c.failure then (c, some .simulatedFailure)
  else
    ({ c with users := deleteUser c.users sessID,
              invalidated := if c.invalidated sessID then Function.update c.invalidated sessID false
                else c.invalidated }, none)

/-- One call on the test double. -/
def call (c : TestCache U) : Call U → TestCache U × Reply U
  | .store u => ((c.store codec u).1, .done (c.store codec u).2)
  | .invalidate k => ((c.invalidate k).1, .done (c.invalidate k).2)
  | .fetch k => (c, .fetched (c.fetch k).1 (c.fetch k).2.1 (c.fetch k).2.2)
  | .purge k => ((c.purge k).1, .done (c.purge k).2)

/-- The replies of a sequence of calls. -/
def run (c : TestCache U) : List (Call U) → List (Reply U)
  | [] => []
  | x :: xs => (c.call codec x).2 :: run (c.call codec x).1 xs

end TestCache

/-! ## 4. Where the two part -/

section Diverge

variable {U : Type} (codec : UserCodec U)

/-- **`Purge` of an absent id.** From empty caches, the real cache answers `ErrCacheMiss`
    and the test double `nil`. -/
theorem purge_absent_diverges (sessID : String) :
    memcacheRun codec (fun _ => none) [.purge sessID] = [.done (some .cacheMiss)] ∧
      TestCache.new.run codec [.purge sessID] = [.done none] :=
  ⟨rfl, rfl⟩

/-- **`Store` over an invalidated id.** From empty caches: invalidate a user's id, store the
    user, fetch the id. Memcache returns the user; the test double still reports the id
    invalid. -/
theorem store_after_invalidate_diverges (u : U)
    (hdec : codec.fromSessionToken (codec.sessId u) (codec.token u) = some u)
    (hph : codec.token u ≠ invalidPlaceholder) :
    memcacheRun codec (fun _ => none)
        [.invalidate (codec.sessId u), .store u, .fetch (codec.sessId u)] =
      [.done none, .done none, .fetched (some u) true none] ∧
    TestCache.new.run codec [.invalidate (codec.sessId u), .store u, .fetch (codec.sessId u)] =
      [.done none, .done none, .fetched none true none] := by
  constructor
  · simp [memcacheRun, memcacheCall, doInvalidate, doStore, doFetch, Memcache.set,
      Memcache.get, hph, hdec]
  · simp [TestCache.run, TestCache.call, TestCache.invalidate, TestCache.store,
      TestCache.fetch, TestCache.new]

end Diverge

/-! ## 5. Where the two agree -/

namespace TestCache

variable {U : Type} (codec : UserCodec U)

/-- The memcache contents the test double stands for: the placeholder for an invalidated
    id, otherwise the token of the stored user, or nothing. -/
def encode (c : TestCache U) : Memcache := fun k =>
  if c.invalidated k then some invalidPlaceholder else (c.users k).map codec.token

/-- Every user is stored under its own session id. -/
def Keyed (c : TestCache U) : Prop := ∀ k u, c.users k = some u → codec.sessId u = k

/-- A call on which the two cachers do not part: anything but a `Purge` of an id the cache
    does not hold, or a `Store` over an invalidated id. -/
def tame (c : TestCache U) : Call U → Bool
  | .store u => !c.invalidated (codec.sessId u)
  | .purge k => (c.encode codec k).isSome
  | _ => true

/-- Every call of a sequence is tame in the state the double is in when it comes. -/
def tameRun (c : TestCache U) : List (Call U) → Bool
  | [] => true
  | x :: xs => c.tame codec x && (c.call codec x).1.tameRun xs

@[simp] theorem deleteUser_eq (users : String → Option U) (k : String) :
    deleteUser users k = Function.update users k none := by
  unfold deleteUser
  split
  · rfl
  · rename_i h
    funext k'
    by_cases e : k' = k
    · subst e; simp [h]
    · simp [Function.update_noteq e]

theorem encode_new : (new : TestCache U).encode codec = fun _ => none := rfl

theorem failure_call (c : TestCache U) (x : Call U) : (c.call codec x).1.failure = c.failure := by
  cases x <;> simp only [call, store, invalidate, purge] <;> split <;> rfl

section Agree

variable {codec} {c : TestCache U} (hf : c.failure = false)
include hf

theorem encode_store (u : U) (hinv : c.invalidated (codec.sessId u) = false) :
    (c.store codec u).1.encode codec = (c.encode codec).set (codec.sessId u) (codec.token u) := by
  funext k
  by_cases e : k = codec.sessId u
  · subst e; simp [store, encode, hf, hinv, Memcache.set]
  · simp [store, encode, hf, e, Memcache.set]

theorem encode_invalidate (k : String) :
    (c.invalidate k).1.encode codec = (c.encode codec).set k invalidPlaceholder := by
  funext k'
  by_cases e : k' = k
  · subst e; simp [invalidate, encode, hf, Memcache.set]
  · simp [invalidate, encode, hf, e, Memcache.set]

theorem encode_purge (k : String) :
    (c.purge k).1.encode codec = Function.update (c.encode codec) k none := by
  funext k'
  by_cases e : k' = k
  · subst e; cases hi : c.invalidated k' <;> simp [purge, encode, hf, hi]
  · cases hi : c.invalidated k <;> simp [purge, encode, hf, e, hi]

theorem Keyed.call (hk : c.Keyed codec) (x : Call U) : (c.call codec x).1.Keyed codec := by
  intro k u h
  cases x with
  | store u' =>
    simp only [TestCache.call, store, hf, Bool.false_eq_true, if_false] at h
    by_cases e : k = codec.sessId u'
    · subst e; simp only [Function.update_same, Option.some.injEq] at h; exact h ▸ rfl
    · exact hk k u (by simpa [Function.update_noteq e] using h)
  | invalidate k' | purge k' =>
    simp only [TestCache.call, invalidate, purge, hf, Bool.false_eq_true, if_false,
      deleteUser_eq] at h
    by_cases e : k = k'
    · subst e; simp at h
    · exact hk k u (by simpa [Function.update_noteq e] using h)
  | fetch k' => exact hk k u h

variable (hdec : ∀ u, codec.fromSessionToken (codec.sessId u) (codec.token u) = some u)
  (hph : ∀ u, codec.token u ≠ invalidPlaceholder)
include hdec hph

/-- **One tame call agrees.** The real cache on the contents the double stands for gives
    the double's reply, and ends on the contents the double's new state stands for. -/
theorem call_agrees (hk : c.Keyed codec) (x : Call U) (ht : c.tame codec x = true) :
    memcacheCall codec (c.encode codec) x =
      ((c.call codec x).1.encode codec, (c.call codec x).2) := by
  cases x with
  | store u =>
    simp only [tame, Bool.not_eq_true'] at ht
    simp only [memcacheCall, TestCache.call, doStore, encode_store hf u ht]
    simp [store, hf]
  | invalidate k =>
    simp only [memcacheCall, TestCache.call, doInvalidate, encode_invalidate hf k]
    simp [invalidate, hf]
  | fetch k =>
    simp only [memcacheCall, TestCache.call, Prod.mk.injEq, true_and, Reply.fetched.injEq]
    have hfetch : doFetch codec (c.encode codec) k = c.fetch k := by
      cases hi : c.invalidated k
      · cases hu : c.users k with
        | none => simp [doFetch, Memcache.get, encode, fetch, hf, hi, hu]
        | some u =>
          obtain rfl := hk k u hu
          simp [doFetch, Memcache.get, encode, fetch, hf, hi, hu, hph u, hdec u]
      · simp [doFetch, Memcache.get, encode, fetch, hf, hi, invalidPlaceholder]
    rw [hfetch]
    exact ⟨rfl, rfl, rfl⟩
  | purge k =>
    simp only [tame, Option.isSome_iff_exists] at ht
    obtain ⟨v, hv⟩ := ht
    simp only [memcacheCall, TestCache.call, doPurge, Memcache.delete, hv, encode_purge hf k]
    simp [purge, hf]

end Agree

/-- Users for concrete runs: two, with session ids `"a"` and `"b"` and tokens `"ta"` and
    `"tb"`, which `FromSessionToken` decodes back. -/
def twoUsers : UserCodec Bool where
  sessId u := if u then "a" else "b"
  token u := if u then "ta" else "tb"
  fromSessionToken _ t := if t = "ta" then some true else if t = "tb" then some false else none

/-- **The first call that is not tame parts them**, with these replies. It is a `Purge` of
    an id the cache does not hold, which memcache answers with `ErrCacheMiss` and the test
    double with `nil`. Or it is a `Store` over an invalidated id, after which a `Fetch` of the
    id gets the user from memcache and `(nil, true, nil)` from the test double. -/
theorem untame_diverges {codec : UserCodec U}
    (hdec : ∀ u, codec.fromSessionToken (codec.sessId u) (codec.token u) = some u)
    (hph : ∀ u, codec.token u ≠ invalidPlaceholder) {c : TestCache U} (hf : c.failure = false)
    (x : Call U) (ht : c.tame codec x = false) :
    (∃ k, x = .purge k ∧ memcacheRun codec (c.encode codec) [x] = [.done (some .cacheMiss)] ∧
        c.run codec [x] = [.done none]) ∨
      ∃ u, x = .store u ∧
        memcacheRun codec (c.encode codec) [x, .fetch (codec.sessId u)] =
          [.done none, .fetched (some u) true none] ∧
        c.run codec [x, .fetch (codec.sessId u)] = [.done none, .fetched none true none] := by
  cases x with
  | store u =>
    simp only [tame, Bool.not_eq_false'] at ht
    refine .inr ⟨u, rfl, ?_, ?_⟩
    · simp [memcacheRun, memcacheCall, doStore, doFetch, Memcache.set, Memcache.get, hph u,
        hdec u]
    · simp [TestCache.run, TestCache.call, store, fetch, hf, ht]
  | purge k =>
    simp only [tame, Option.not_isSome, Option.isNone_iff_eq_none] at ht
    exact .inl ⟨k, rfl, by simp [memcacheRun, memcacheCall, doPurge, Memcache.delete, ht],
      by simp [TestCache.run, TestCache.call, purge, hf]⟩
  | invalidate k | fetch k => cases ht

/-- The test double after `Invalidate("a")`. -/
def invalidatedA : TestCache Bool := ((new : TestCache Bool).invalidate "a").1

theorem untame_diverges_twoUsers :
    memcacheRun twoUsers (invalidatedA.encode twoUsers) [.store true, .fetch "a"] =
        [.done none, .fetched (some true) true none] ∧
      invalidatedA.run twoUsers [.store true, .fetch "a"] =
        [.done none, .fetched none true none] := by
  rcases @untame_diverges Bool twoUsers (by decide) (by decide) invalidatedA rfl (.store true)
    (by decide) with ⟨k, hk, -⟩ | ⟨u, hu, h⟩
  · cases hk
  · cases hu; exact h

/-- **The two agree along every tame run.** From a test double that does not fail and
    stores users under their ids, and the memcache contents it stands for, every sequence
    of tame calls gets the same replies from both. -/
theorem run_agrees {codec : UserCodec U}
    (hdec : ∀ u, codec.fromSessionToken (codec.sessId u) (codec.token u) = some u)
    (hph : ∀ u, codec.token u ≠ invalidPlaceholder) {c : TestCache U} (hf : c.failure = false)
    (hk : c.Keyed codec) (xs : List (Call U)) (ht : c.tameRun codec xs = true) :
    memcacheRun codec (c.encode codec) xs = c.run codec xs := by
  induction xs generalizing c with
  | nil => rfl
  | cons x xs ih =>
    simp only [tameRun, Bool.and_eq_true] at ht
    rw [memcacheRun, TestCache.run, call_agrees hf hdec hph hk x ht.1,
      ih ((failure_call codec c x).trans hf) (hk.call hf x) ht.2]

/-- Store, fetch, invalidate, fetch, purge, fetch: every call tame. -/
def tameCalls : List (Call Bool) :=
  [.store true, .fetch "a", .invalidate "a", .fetch "a", .purge "a", .fetch "a"]

theorem run_agrees_twoUsers :
    memcacheRun twoUsers ((new : TestCache Bool).encode twoUsers) tameCalls =
      (new : TestCache Bool).run twoUsers tameCalls :=
  run_agrees (by decide) (by decide) rfl (fun _ _ h => by cases h) tameCalls (by decide)

example : (new : TestCache Bool).run twoUsers tameCalls =
    [.done none, .fetched (some true) true none, .done none, .fetched none true none,
     .done none, .fetched none false none] := by
  decide

end TestCache

end Auth
end ServiceLayer
