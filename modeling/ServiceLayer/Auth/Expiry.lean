import ServiceLayer.Auth.Cache
import ServiceLayer.Go.Float

/-!
# How long `doStore` keeps a token

`doStore` gives the item it sets an `Expiration` of
`int32(u.ExpiryTs.Sub(time.Now()).Seconds())`: the session's remaining lifetime in whole
seconds, or 0 for a user with no `ExpiryTs`. Memcache reads an `Expiration` as follows:

* 0 never expires;
* up to 30 days is a number of seconds from now;
* a larger value is a Unix time;
* a negative value has already expired.

Together they keep the token exactly as long as the session while between one second and
30 days of it remain, and drop an expired session's token at once (`doStore_expiry`).
Outside that window:

* **Within a second of the session's end**, before or after, the whole seconds truncate
  to 0, and memcache keeps the token for ever (`subsecond_token_never_expires`). So a
  session that is about to end, or has just ended, stays cached.
* **More than 30 days before the end**, the whole seconds are read as a Unix time near
  1970. The token is dropped at that time, long before the session ends.

## What is modelled, and how

* A `time.Time` is its instant in nanoseconds since the Unix epoch. `Sub` saturates to
  the int64 range of a `Duration`, as Go's does.
* `Duration.Seconds()` is `float64(sec) + float64(nsec)/1e9` with `sec = d / Second`, and
  converting a float64 to `int32` truncates toward zero. `secondsToInt32Go` computes that
  with Go's float64 rounding (`Go/Float.lean`). The model, `secondsToInt32`, takes the
  result to be `sec`, Go's truncating division, and `secondsToInt32Go_eq` proves the two
  equal while `|sec| < 2^24` (194 days), past memcache's 30-day window. Beyond, the
  rounded sum can reach the next whole second, and just below `2^31` leave the int32 range.
* Past 32 bits the Go spec leaves the conversion to the implementation, so the model
  takes its result as a parameter, `outOfRange`.
-/

set_option autoImplicit false

namespace ServiceLayer
namespace Auth

open Go

/-! ## 1. Go's clock -/

/-- A `time.Time`: its instant, in nanoseconds since the Unix epoch. -/
structure Time where
  unixNano : Int
  deriving DecidableEq, Repr

/-- The zero `time.Time`, January 1 of year 1, 00:00:00 UTC. -/
def Time.zero : Time := ⟨-62135596800000000000⟩

/-- `t.IsZero()`. -/
def Time.isZero (t : Time) : Bool := t == Time.zero

/-- `time.Second`, in nanoseconds. -/
def second : Int := 1000000000

/-- `minDuration` of package `time`: the least int64. -/
def minDuration : Int := -9223372036854775808

/-- `maxDuration` of package `time`: the greatest int64. -/
def maxDuration : Int := 9223372036854775807

/-- `t.Sub(u)`: the `Duration` from `u` to `t` in nanoseconds, or `minDuration` or
    `maxDuration` when that overflows. -/
def Time.sub (t u : Time) : Int := max minDuration (min maxDuration (t.unixNano - u.unixNano))

/-- `int32(d.Seconds())`: the whole seconds of `d`, truncated toward zero, while they fit in
    an int32; beyond, whatever the platform's conversion gives (`outOfRange d`). -/
def secondsToInt32 (outOfRange : Int → Int) (d : Int) : Int :=
  if -2147483648 ≤ d.tdiv second ∧ d.tdiv second ≤ 2147483647 then d.tdiv second
  else outOfRange d

/-- Go's `d / Second` truncates toward zero: floor division of the magnitude. -/
theorem tdiv_second (d : Int) :
    d.tdiv second = if 0 ≤ d then d / second else -((-d) / second) := by
  split_ifs with h
  · exact Int.tdiv_eq_ediv h (by decide)
  · have := Int.neg_tdiv (-d) second
    rw [Int.neg_neg] at this
    rw [this, Int.tdiv_eq_ediv (by omega) (by decide)]

/-! ### Go's float path -/

/-- `d.Seconds()`: `float64(sec) + float64(nsec)/1e9` for `sec = d / Second` and
    `nsec = d % Second`, each operation rounded to float64. Both conversions are exact:
    `|sec|` and `|nsec|` are below `2^53`. -/
def durationSeconds (d : Int) : ℚ :=
  roundFloat64 ((d.tdiv second : ℚ) + roundFloat64 ((d.tmod second : ℚ) / 1000000000))

/-- `int32(d.Seconds())` as Go computes it. -/
def secondsToInt32Go (outOfRange : Int → Int) (d : Int) : Int :=
  float64ToInt32 (outOfRange d) (durationSeconds d)

/-- Below `2^24` whole seconds, `sec + nsec/1e9` rounded stays within the whole second
    `sec`: the fraction is at most `1 - 10⁻⁹`, and each rounding adds less than `2^-30`. -/
theorem roundFloat64_seconds {a b : ℤ} (ha : 0 ≤ a) (ha' : a < 16777216) (hb : 0 ≤ b)
    (hb' : b < 1000000000) :
    (a : ℚ) ≤ roundFloat64 (a + roundFloat64 ((b : ℚ) / 1000000000)) ∧
      roundFloat64 (a + roundFloat64 ((b : ℚ) / 1000000000)) < a + 1 := by
  have ha₀ : (0 : ℚ) ≤ a := by exact_mod_cast ha
  have ha₁ : (a : ℚ) ≤ 16777215 := by exact_mod_cast (by omega : a ≤ 16777215)
  have hb₁ : (b : ℚ) ≤ 999999999 := by exact_mod_cast (by omega : b ≤ 999999999)
  -- the fraction `nsec / 1e9`, below `1 - 10⁻⁹`, rounded by at most `2^-53`
  have hy : (0 : ℚ) ≤ b / 1000000000 := by positivity
  have huy : ulp ((b : ℚ) / 1000000000) ≤ 2 ^ (1 - 53 : ℤ) := ulp_le hy le_rfl (by norm_num; linarith)
  have hq₀ : (0 : ℚ) ≤ roundFloat64 ((b : ℚ) / 1000000000) := by
    exact_mod_cast le_roundFloat64 hy (n := 0) (by simpa using hy) (huy.trans (by norm_num))
  have hq₁ := roundFloat64_le hy
  -- the sum, below `2^24`, rounded by at most `2^-30`
  have hs : (0 : ℚ) ≤ a + roundFloat64 ((b : ℚ) / 1000000000) := by linarith
  have hus := ulp_le hs (j := 24) (by norm_num) (by norm_num at huy ⊢; linarith)
  norm_num at huy hus
  refine ⟨le_roundFloat64 hs (by linarith) (by linarith), ?_⟩
  have := roundFloat64_le hs
  linarith

/-- **Go's `int32(d.Seconds())` is the model's while the whole seconds stay below `2^24`.**
    There the float64 sum reaches neither the next whole second nor the int32 limits. -/
theorem secondsToInt32Go_eq (outOfRange : Int → Int) (d : Int)
    (h : (d.tdiv second).natAbs < 16777216) :
    secondsToInt32Go outOfRange d = secondsToInt32 outOfRange d := by
  have hfit : -2147483648 ≤ d.tdiv second ∧ d.tdiv second ≤ 2147483647 := by omega
  rw [secondsToInt32, if_pos hfit, secondsToInt32Go, durationSeconds]
  have hsec : 0 < second := by decide
  rcases le_or_lt 0 d with hd | hd
  · have hs : 0 ≤ d.tdiv second := Int.tdiv_nonneg hd hsec.le
    obtain ⟨h₁, h₂⟩ := roundFloat64_seconds hs (by omega) (Int.tmod_nonneg _ hd)
      (Int.tmod_lt_of_pos d hsec)
    exact (float64ToInt32_of_floor hs (by omega) h₁ h₂).1
  · have hs : 0 ≤ (-d).tdiv second := Int.tdiv_nonneg (by omega) hsec.le
    have hdiv : d.tdiv second = -(-d).tdiv second := by rw [Int.neg_tdiv, Int.neg_neg]
    have hmod : d.tmod second = -(-d).tmod second := by
      have e₁ := Int.tmod_add_tdiv d second
      have e₂ := Int.tmod_add_tdiv (-d) second
      rw [Int.neg_tdiv] at e₂
      unfold second at *
      omega
    obtain ⟨h₁, h₂⟩ := roundFloat64_seconds hs (by omega) (Int.tmod_nonneg _ (by omega))
      (Int.tmod_lt_of_pos (-d) hsec)
    rw [hdiv, hmod, Int.cast_neg, Int.cast_neg, neg_div, roundFloat64_neg, ← neg_add,
      roundFloat64_neg]
    exact (float64ToInt32_of_floor hs (by omega) h₁ h₂).2

/-- **The bound matters.** With `2^24` seconds and 999999999 ns left, the float64 sum rounds
    up to the next whole second: Go's `int32(d.Seconds())` is `2^24 + 1`, the model's
    `2^24`. -/
theorem secondsToInt32Go_rounds_up (outOfRange : Int → Int) :
    secondsToInt32Go outOfRange (16777216 * second + 999999999) = 16777217 ∧
      secondsToInt32 outOfRange (16777216 * second + 999999999) = 16777216 := by
  have hy : ulp ((999999999 : ℚ) / 1000000000) = 2 ^ (-53 : ℤ) := by
    rw [ulp, log_two_eq (k := -1) (by norm_num) (by norm_num)]; norm_num
  have hq : roundFloat64 ((999999999 : ℚ) / 1000000000) = 9007199245733793 / 2 ^ 53 := by
    rw [roundFloat64_of_nonneg (by norm_num), hy, roundHalfEven_of_half_lt
      (n := 9007199245733792) (by rw [Int.floor_eq_iff]; norm_num) (by norm_num)]
    norm_num
  have hs : ulp (16777216 + 9007199245733793 / 2 ^ 53 : ℚ) = 2 ^ (-28 : ℤ) := by
    rw [ulp, log_two_eq (k := 24) (by norm_num) (by norm_num)]; norm_num
  have hr : roundFloat64 (16777216 + 9007199245733793 / 2 ^ 53 : ℚ) = 16777217 := by
    rw [roundFloat64_of_nonneg (by norm_num), hs, roundHalfEven_of_half_lt
      (n := 4503599895805951) (by rw [Int.floor_eq_iff]; norm_num) (by norm_num)]
    norm_num
  have hd : (16777216 * second + 999999999).tdiv second = 16777216 := by decide
  have hm : (16777216 * second + 999999999).tmod second = 999999999 := by decide
  refine ⟨?_, by rw [secondsToInt32, hd]; rfl⟩
  rw [secondsToInt32Go, durationSeconds, hd, hm]
  push_cast
  rw [hq, hr, float64ToInt32]
  norm_num

theorem secondsToInt32Go_eq_hour :
    ((3600500000000 : Int).tdiv second).natAbs < 16777216 ∧
      secondsToInt32Go (fun _ => -2147483648) 3600500000000 = 3600 :=
  have h : ((3600500000000 : Int).tdiv second).natAbs < 16777216 := by decide
  ⟨h, (secondsToInt32Go_eq (fun _ => -2147483648) 3600500000000 h).trans (by decide)⟩

/-! ## 2. Memcache's expiration -/

/-- The longest `Expiration` memcache reads as relative: 30 days, in seconds. -/
def maxRelativeExpiration : Int := 2592000

/-- When memcache drops an item set at `now` with `Expiration` `e`, in nanoseconds since the
    Unix epoch, or `none` for never. 0 never expires; up to 30 days counts seconds from
    `now`; a larger value is a Unix time in seconds; a negative one has already expired. -/
def Memcache.expiresAt (now : Time) (e : Int) : Option Int :=
  if e = 0 then none
  else if e < 0 then some now.unixNano
  else if e ≤ maxRelativeExpiration then some (now.unixNano + e * second)
  else some (e * second)

/-! ## 3. The `Expiration` `doStore` writes -/

/-- `doStore`'s `ttl`, the `Expiration` of the item it sets, for a user whose `ExpiryTs` is
    `expiryTs` when `time.Now()` is `now`: 0 for the zero `ExpiryTs`, and
    `int32(u.ExpiryTs.Sub(time.Now()).Seconds())` otherwise. -/
def doStoreTtl (outOfRange : Int → Int) (expiryTs now : Time) : Int :=
  if expiryTs.isZero then 0 else secondsToInt32 outOfRange (expiryTs.sub now)

section Ttl

variable (outOfRange : Int → Int) {expiryTs now : Time}

/-- Exactly while the remaining lifetime's whole seconds fit in 32 bits, `ttl` is those
    seconds, truncated toward zero. -/
theorem doStoreTtl_eq (hz : expiryTs.isZero = false)
    (hfit : -2147483649 * 1000000000 < expiryTs.unixNano - now.unixNano ∧
      expiryTs.unixNano - now.unixNano < 2147483648 * 1000000000) :
    doStoreTtl outOfRange expiryTs now = (expiryTs.unixNano - now.unixNano).tdiv second := by
  have hsub : expiryTs.sub now = expiryTs.unixNano - now.unixNano := by
    unfold Time.sub minDuration maxDuration; omega
  rw [doStoreTtl, if_neg (by simp [hz]), secondsToInt32, hsub, if_pos]
  rw [tdiv_second]
  unfold second
  split_ifs <;> omega

/-- Stored at or after the Unix epoch, a second or more from the session's end, with the
    whole seconds within an int32: memcache drops the token by `ExpiryTs`, or at once. -/
theorem expiresAt_doStoreTtl_le (hz : expiryTs.isZero = false) (h0 : 0 ≤ now.unixNano)
    (h1 : 1000000000 ≤ (expiryTs.unixNano - now.unixNano).natAbs)
    (h2 : (expiryTs.unixNano - now.unixNano).natAbs < 2147483648 * 1000000000) :
    ∃ x, Memcache.expiresAt now (doStoreTtl outOfRange expiryTs now) = some x ∧
      (x ≤ expiryTs.unixNano ∨ x = now.unixNano) := by
  rw [doStoreTtl_eq outOfRange hz (by omega), tdiv_second]
  unfold Memcache.expiresAt maxRelativeExpiration second
  split_ifs <;> first | omega | exact ⟨_, rfl, by omega⟩

/-- **A token stored within a second of its session's end never expires.** For every `now`
    and every non-zero `ExpiryTs` less than a second away from it, before or after,
    `doStore` writes `Expiration` 0, which memcache keeps for ever. So the cached token
    outlives the session. -/
theorem subsecond_token_never_expires (hz : expiryTs.isZero = false)
    (hlt : (expiryTs.unixNano - now.unixNano).natAbs < 1000000000) :
    doStoreTtl outOfRange expiryTs now = 0 ∧
      Memcache.expiresAt now (doStoreTtl outOfRange expiryTs now) = none := by
  have h0 : doStoreTtl outOfRange expiryTs now = 0 := by
    rw [doStoreTtl_eq outOfRange hz (by omega), tdiv_second]
    unfold second
    split_ifs <;> omega
  exact ⟨h0, by rw [h0]; rfl⟩

/-- A session with half a second left, stored at 2023-11-14 22:13:20 UTC. -/
theorem subsecond_token_never_expires_halfSecond :
    (Time.isZero ⟨1700000000500000000⟩ = false ∧
      (1700000000500000000 - 1700000000000000000 : Int).natAbs < 1000000000) ∧
    Memcache.expiresAt ⟨1700000000000000000⟩
      (doStoreTtl (fun _ => -2147483648) ⟨1700000000500000000⟩ ⟨1700000000000000000⟩) = none :=
  have hz : Time.isZero ⟨1700000000500000000⟩ = false := by decide
  have hlt : (1700000000500000000 - 1700000000000000000 : Int).natAbs < 1000000000 := by decide
  ⟨⟨hz, hlt⟩, (subsecond_token_never_expires (fun _ => -2147483648) hz hlt).2⟩

/-- **When memcache drops a stored token**, for a non-zero `ExpiryTs` that is `d`
    nanoseconds after `now`:
    * with one second to 30 days left, at `now` plus the whole seconds left, which is no
      later than `ExpiryTs`;
    * a second or more after the session ended (and within the int32 range), at once;
    * with more than 30 days but fewer than `2^24` seconds (194 days) left, at the Unix time
      of the whole seconds left, which is before `now` plus those seconds for any `now` after
      1970. -/
theorem doStore_expiry (hz : expiryTs.isZero = false) :
    let d := expiryTs.unixNano - now.unixNano
    let e := Memcache.expiresAt now (doStoreTtl outOfRange expiryTs now)
    (second ≤ d → d / second ≤ maxRelativeExpiration →
      e = some (now.unixNano + d / second * second) ∧
        now.unixNano + d / second * second ≤ expiryTs.unixNano) ∧
    (d ≤ -second → -2147483648 * second ≤ d → e = some now.unixNano) ∧
    (maxRelativeExpiration < d / second → d / second < 16777216 →
      e = some (d / second * second) ∧
        (0 < now.unixNano → d / second * second < now.unixNano + d / second * second)) := by
  intro d e
  have hd : d = expiryTs.unixNano - now.unixNano := rfl
  have hsec : second = 1000000000 := rfl
  have he (hfit : -2147483649 * 1000000000 < d ∧ d < 2147483648 * 1000000000) :
      e = Memcache.expiresAt now (if 0 ≤ d then d / second else -((-d) / second)) :=
    tdiv_second d ▸ congrArg (Memcache.expiresAt now) (doStoreTtl_eq outOfRange hz hfit)
  simp only [hsec, maxRelativeExpiration] at he ⊢
  refine ⟨fun h1 h2 => ?_, fun h1 h2 => ?_, fun h1 h2 => ?_⟩ <;>
    rw [he (by omega)] <;> simp only [Memcache.expiresAt, hsec, maxRelativeExpiration] <;>
    split_ifs <;> first | omega | (simp only [Option.some.injEq, true_and] <;> omega)

/-- A session with an hour and half a second left is dropped after the hour. -/
theorem doStore_expiry_hourLeft :
    Time.isZero ⟨1700003600500000000⟩ = false ∧
      Memcache.expiresAt ⟨1700000000000000000⟩
        (doStoreTtl (fun _ => -2147483648) ⟨1700003600500000000⟩ ⟨1700000000000000000⟩) =
        some 1700003600000000000 :=
  have hz : Time.isZero ⟨1700003600500000000⟩ = false := by decide
  ⟨hz, ((doStore_expiry (fun _ => -2147483648) hz).1 (by decide) (by decide)).1⟩

end Ttl

end Auth
end ServiceLayer
