import DevBrowse.Lib.Checked
import Mathlib.Data.Int.CardIntervalMod

/-!
# Words

Arithmetic on words of a given width. An operation stops where its result does not fit, or
where it divides by zero; a conversion (`Word.asSigned`, `Word.asUnsigned`) never stops, and
changes a number that does not fit (`Word.asSigned_eq_self_iff`).

The last section counts how often each remainder occurs among the first numbers.
-/

namespace Word

variable {ε : Type} {width : ℕ} {a b : UInt64} {x y : ℤ}

/-- A result that is to fit into an unsigned word. -/
def unsigned (width : ℕ) (x : ℤ) : Checked ε ℤ :=
  if 0 ≤ x ∧ x < 2 ^ width then .ok x else .error .panicked

/-- A result that is to fit into a signed word. -/
def signed (width : ℕ) (x : ℤ) : Checked ε ℤ :=
  if -2 ^ (width - 1) ≤ x ∧ x < 2 ^ (width - 1) then .ok x else .error .panicked

/-- The remainder of two unsigned words. -/
def rem (x y : ℤ) : Checked ε ℤ := if y = 0 then .error .panicked else .ok (x % y)

/-- The number as a signed word, of which there are as many as of the unsigned ones. -/
def asSigned (width : ℕ) (x : ℤ) : ℤ := x.bmod (2 ^ width)

/-- The signed word that is nearest to a number. -/
def saturate (width : ℕ) (x : ℤ) : ℤ := max (-2 ^ (width - 1)) (min x (2 ^ (width - 1) - 1))

/-- The number as an unsigned word. -/
def asUnsigned (width : ℕ) (x : ℤ) : ℤ := x % 2 ^ width

theorem unsigned_eq_ok (h₀ : 0 ≤ x) (h : x < 2 ^ width) :
    (unsigned width x : Checked ε ℤ) = .ok x := if_pos ⟨h₀, h⟩

theorem signed_eq_ok (h₀ : -2 ^ (width - 1) ≤ x) (h : x < 2 ^ (width - 1)) :
    (signed width x : Checked ε ℤ) = .ok x := if_pos ⟨h₀, h⟩

theorem rem_eq_ok (h : y ≠ 0) : (rem x y : Checked ε ℤ) = .ok (x % y) := if_neg h

/-- **A conversion to a signed word keeps exactly the numbers that fit.** -/
theorem asSigned_eq_self_iff (hwidth : 0 < width) :
    asSigned width x = x ↔ -2 ^ (width - 1) ≤ x ∧ x < 2 ^ (width - 1) := by
  obtain ⟨n, rfl⟩ := Nat.exists_eq_succ_of_ne_zero hwidth.ne'
  have hpow : (2 : ℤ) ^ (n + 1) = 2 * 2 ^ n := by rw [pow_succ, mul_comm]
  rw [asSigned, Int.bmod_eq_iff (by positivity)]
  push_cast
  simp only [Nat.succ_eq_add_one, hpow, sub_self]
  constructor
  · rintro ⟨hlow, hhigh, -⟩
    omega
  · rintro ⟨hlow, hhigh⟩
    exact ⟨by omega, by omega, dvd_zero _⟩

theorem asUnsigned_eq_self (h₀ : 0 ≤ x) (h : x < 2 ^ width) : asUnsigned width x = x :=
  Int.emod_eq_of_lt h₀ h

theorem emod_le (hx : 0 ≤ x) (hy : 0 < y) : x % y ≤ x := by
  have hquot : 0 ≤ y * (x / y) := mul_nonneg hy.le (Int.ediv_nonneg hx hy.le)
  rw [Int.emod_def]
  omega

/-! ### Unsigned words of 64 bits -/

/-- The quotient of two words. -/
def div64 (a b : UInt64) : Checked ε UInt64 := if b = 0 then .error .panicked else .ok (a / b)

/-- The remainder of two words. -/
def rem64 (a b : UInt64) : Checked ε UInt64 := if b = 0 then .error .panicked else .ok (a % b)

/-- The product of two words. -/
def mul64 (a b : UInt64) : Checked ε UInt64 :=
  if a.toNat * b.toNat < 2 ^ 64 then .ok (a * b) else .error .panicked

theorem div64_eq_ok (h : b ≠ 0) : (div64 a b : Checked ε UInt64) = .ok (a / b) := if_neg h

theorem rem64_eq_ok (h : b ≠ 0) : (rem64 a b : Checked ε UInt64) = .ok (a % b) := if_neg h

theorem mul64_eq_ok (h : a.toNat * b.toNat < 2 ^ 64) :
    (mul64 a b : Checked ε UInt64) = .ok (a * b) := if_pos h

/-! ### Remainders among the first numbers -/

/-- **All remainders are hit equally often**, up to one. -/
theorem count_mod_le {m r r' : ℕ} (n : ℕ) (hr : r < m) (hr' : r' < m) :
    n.count (fun k => k % m = r) ≤ n.count (fun k => k % m = r') + 1 := by
  have hcount : ∀ r < m, n.count (fun k => k % m = r) =
      n / m + if r % m < n % m then 1 else 0 := by
    intro r hr
    have h := Nat.count_modEq_card n (Nat.zero_lt_of_lt hr) r
    simpa only [Nat.ModEq, Nat.mod_eq_of_lt hr] using h
  rw [hcount r hr, hcount r' hr']
  split <;> split <;> omega

end Word
