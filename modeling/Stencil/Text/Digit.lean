/-!
# Digits

A digit of a base is `0` to `9` or, in either case, a letter from `a` on.

* `digitOf?` — the value of a digit;
* `digitsAfter`, `digitsValue?` — the number that digits write.
-/

namespace Stencil.Text

/-- What a character is worth as a digit. -/
def digitWorth? (c : Char) : Option Nat :=
  let n := c.toNat
  if 48 ≤ n ∧ n ≤ 57 then some (n - 48)
  else if 97 ≤ n ∧ n ≤ 122 then some (n - 87)
  else if 65 ≤ n ∧ n ≤ 90 then some (n - 55)
  else none

/-- The value of a digit of a base. -/
def digitOf? (base : Nat) (c : Char) : Option Nat := (digitWorth? c).filter (· < base)

/-- The number that digits write behind the digits of `n`. -/
def digitsAfter (base n : Nat) : List Char → Option Nat
  | [] => some n
  | c :: cs =>
    match digitOf? base c with
    | some d => digitsAfter base (n * base + d) cs
    | none => none

/-- The number that one or more digits write. -/
def digitsValue? (base : Nat) (cs : List Char) : Option Nat :=
  if cs.isEmpty then none else digitsAfter base 0 cs

/-- A digit is less than its base. -/
theorem lt_of_digitOf? {base d : Nat} {c : Char} (h : digitOf? base c = some d) : d < base := by
  simpa using (Option.filter_eq_some_iff.1 h).2

/-- As many digits as `cs` has stay below that power of the base. -/
theorem digitsAfter_lt {base n m : Nat} {cs : List Char} (h : digitsAfter base n cs = some m) :
    m < (n + 1) * Nat.pow base cs.length := by
  induction cs generalizing n with
  | nil =>
    simp only [digitsAfter, Option.some.injEq] at h
    subst h
    exact Nat.lt_of_lt_of_eq (Nat.lt_succ_self n) (Nat.mul_one _).symm
  | cons c cs ih =>
    simp only [digitsAfter] at h
    split at h
    · rename_i d hd
      have hlt := lt_of_digitOf? hd
      have hstep : n * base + d + 1 ≤ (n + 1) * base := by
        rw [Nat.add_mul]
        omega
      calc m < (n * base + d + 1) * Nat.pow base cs.length := ih h
        _ ≤ (n + 1) * base * Nat.pow base cs.length := Nat.mul_le_mul_right _ hstep
        _ = (n + 1) * (Nat.pow base cs.length * base) := by
          rw [Nat.mul_assoc, Nat.mul_comm base]
    · cases h

end Stencil.Text
