import Mathlib.Algebra.Group.Int
import Mathlib.Order.Basic

/-!
# `int64_t` and `absl::Duration`

Five knobs of `parameters.cc` are set and read as `absl::Duration`s but kept
in a `std::atomic<int64_t>` counting nanoseconds: a setter stores
`absl::ToInt64Nanoseconds(v)` and a getter returns `absl::Nanoseconds(n)` of
what it loads. What a getter hands back is therefore the setter's argument
after a round trip through `int64_t`, and this module says what that round
trip keeps.

An `absl::Duration` is either finite – a signed count of quarter-nanosecond
ticks, absl's resolution – or one of the two infinite durations.
`ToInt64Nanoseconds` truncates toward zero to whole nanoseconds and saturates
to the `int64_t` range; an infinite duration saturates to the bound of its
sign. `Nanoseconds` of an `int64_t` is exact. So the round trip is the
identity exactly on the durations that are a whole number of nanoseconds
within the `int64_t` range (`nanoseconds_toInt64Nanoseconds_eq_self_iff`):
`InfiniteDuration()` reads back as a finite duration of `2^63 - 1`
nanoseconds, and `-InfiniteDuration()` as one of `-2^63`.

Finite durations are not bounded here: absl keeps at most `2^63` seconds
either way, and every statement below holds over the larger set.
-/

namespace Tcmalloc

/-- **An `int64_t`**: an integer in `[-2^63, 2^63)`. -/
structure Int64 where
  /-- The integer the bits stand for. -/
  val : Int
  /-- At least `INT64_MIN`. -/
  min_le : -2 ^ 63 ≤ val
  /-- At most `INT64_MAX`. -/
  lt_max : val < 2 ^ 63
deriving DecidableEq, Repr

namespace Int64

/-- `std::numeric_limits<int64_t>::max()`. -/
def max : Int64 := ⟨2 ^ 63 - 1, by decide, by decide⟩

/-- `std::numeric_limits<int64_t>::min()`. -/
def min : Int64 := ⟨-2 ^ 63, by decide, by decide⟩

/-- The nearest `int64_t` to an integer: the integer itself when it fits,
the bound it passes otherwise. -/
def saturate (n : Int) : Int64 :=
  ⟨Max.max (-2 ^ 63) (Min.min n (2 ^ 63 - 1)), by omega, by omega⟩

@[simp] theorem saturate_val (x : Int64) : saturate x.val = x := by
  obtain ⟨n, h₁, h₂⟩ := x
  simp only [saturate, mk.injEq]
  omega

end Int64

namespace Absl

/-- **An `absl::Duration`**: a finite count of quarter-nanosecond ticks, or
the positive or negative infinite duration. -/
inductive Duration where
  /-- A finite duration of `ticks` quarter nanoseconds. -/
  | finite (ticks : Int)
  /-- `InfiniteDuration()`, or its negation when `negative`. -/
  | infinite (negative : Bool)
deriving DecidableEq, Repr

/-- `kTicksPerNanosecond`. -/
def ticksPerNanosecond : Int := 4

/-- `absl::Nanoseconds(n)` of an `int64_t`. -/
def nanoseconds (n : Int64) : Duration :=
  .finite (ticksPerNanosecond * n.val)

/-- `absl::Seconds(n)`. -/
def seconds (n : Int) : Duration :=
  .finite (ticksPerNanosecond * (n * 1000000000))

/-- `absl::ZeroDuration()`. -/
def zeroDuration : Duration := .finite 0

/-- `absl::InfiniteDuration()`. -/
def infiniteDuration : Duration := .infinite false

/-- `absl::ToInt64Nanoseconds(d)`: whole nanoseconds truncated toward zero
and saturated to `int64_t`; an infinite duration gives the bound of its
sign. -/
def toInt64Nanoseconds : Duration → Int64
  | .finite ticks => Int64.saturate (ticks.tdiv ticksPerNanosecond)
  | .infinite negative => if negative then Int64.min else Int64.max

/-- **`int64_t` nanoseconds survive the round trip**: converting
`Nanoseconds(n)` back gives `n`. -/
@[simp] theorem toInt64Nanoseconds_nanoseconds (n : Int64) :
    toInt64Nanoseconds (nanoseconds n) = n := by
  simp [toInt64Nanoseconds, nanoseconds, ticksPerNanosecond]

/-- **What the int64 round trip keeps.** `Nanoseconds(ToInt64Nanoseconds(d))`
is `d` exactly when `d` is a whole number of nanoseconds within the
`int64_t` range. -/
theorem nanoseconds_toInt64Nanoseconds_eq_self_iff (d : Duration) :
    nanoseconds (toInt64Nanoseconds d) = d ↔ ∃ n, d = nanoseconds n := by
  constructor
  · exact fun h => ⟨_, h.symm⟩
  · rintro ⟨n, rfl⟩
    rw [toInt64Nanoseconds_nanoseconds]

end Absl

end Tcmalloc
