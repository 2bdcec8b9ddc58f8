import Mathlib.Data.Nat.Basic
import Mathlib.Order.Basic

/-!
# Clocks that go in steps

A clock of a coarse resolution does not tell the times of one bucket apart, and shows a time
that lies in the bucket itself. From that alone it never runs backwards
(`StepClock.lt_of_bucket_lt`), and reading what it shows shows the same again
(`StepClock.read_read`), whatever is shown within the bucket.
-/

/-- **A clock that goes in steps** of a width `q`: `read` is what is shown at a time, and `val` the
number a time stands for. -/
structure StepClock {α : Type*} (val : α → ℕ) (q : ℕ) (read : α → α) : Prop where
  /-- The times of a bucket are shown alike. -/
  same : ∀ {t t' : α}, val t / q = val t' / q → read t = read t'
  /-- What is shown is not before the bucket. -/
  le : ∀ t, val t / q * q ≤ val (read t)
  /-- What is shown is not after the bucket. -/
  lt : ∀ t, val (read t) < val t / q * q + q

namespace StepClock

variable {α : Type*} {val : α → ℕ} {q : ℕ} {read : α → α} {t t' : α}

/-- What is shown lies in the bucket of the time. -/
theorem bucket_read (h : StepClock val q read) (t : α) : val (read t) / q = val t / q := by
  have hlt := h.lt t
  rw [← Nat.succ_mul] at hlt
  exact Nat.div_eq_of_lt_le (h.le t) hlt

/-- **Reading again what was shown shows the same.** -/
theorem read_read (h : StepClock val q read) (t : α) : read (read t) = read t :=
  h.same (h.bucket_read t)

/-- **A later bucket is shown as a later time.** -/
theorem lt_of_bucket_lt (h : StepClock val q read) (hlt : val t / q < val t' / q) :
    val (read t) < val (read t') :=
  calc val (read t) < val t / q * q + q := h.lt t
    _ = (val t / q + 1) * q := (Nat.succ_mul _ _).symm
    _ ≤ val t' / q * q := Nat.mul_le_mul_right q hlt
    _ ≤ val (read t') := h.le t'

/-- **The clock never runs backwards.** -/
theorem mono (h : StepClock val q read) (hle : val t ≤ val t') : val (read t) ≤ val (read t') := by
  rcases Nat.eq_or_lt_of_le (Nat.div_le_div_right (c := q) hle) with heq | hlt
  · rw [h.same heq]
  · exact Nat.le_of_lt (h.lt_of_bucket_lt hlt)

end StepClock
