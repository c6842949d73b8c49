/-
This file develops the search for the greatest number that passes a test, by
halving an interval from above. The test may fail to answer. The search never
tries the lower end: it returns it when nothing above it passes, whether or not
the lower end itself does.
-/

import Mathlib.Data.Nat.Basic
import Mathlib.Order.Basic
import Mathlib.Tactic.Common

namespace Bisection

variable {Error : Type*}

/-- Bisection for the greatest number that passes; the lower end is taken to pass. -/
def search (test : ℕ → Except Error Bool) (lo hi : ℕ) : Except Error ℕ :=
  if lo < hi then do
    let passed ← test ((lo + hi + 1) / 2)
    if passed then search test ((lo + hi + 1) / 2) hi
    else search test lo ((lo + hi + 1) / 2 - 1)
  else pure lo
termination_by hi - lo

/-- What the search returns for a test that answers everywhere. -/
structure Found (passes : ℕ → Bool) (lo hi result : ℕ) : Prop where
  ge : lo ≤ result
  le : result ≤ hi
  passed : result = lo ∨ passes result = true
  above : ∀ other, result < other → other ≤ hi → passes other = false

/-- The induction is on the length of the interval; that everything above it fails is kept because
a number that fails makes every greater one fail. -/
theorem search_eq {test : ℕ → Except Error Bool} {passes : ℕ → Bool} {lo hi : ℕ}
    (ordered : lo ≤ hi) (answers : ∀ number, lo < number → number ≤ hi →
      test number = .ok (passes number))
    (closed : ∀ number other, lo < number → number ≤ other → other ≤ hi → passes other = true →
      passes number = true) :
    ∃ result, search test lo hi = .ok result ∧ Found passes lo hi result := by
  induction length : hi - lo using Nat.strongRecOn generalizing lo hi with
  | _ _ inductionHypothesis =>
    unfold search
    by_cases open' : lo < hi
    · have low : lo < (lo + hi + 1) / 2 := by omega
      have high : (lo + hi + 1) / 2 ≤ hi := by omega
      generalize (lo + hi + 1) / 2 = mid at low high
      rw [if_pos open', answers mid low high]
      cases verdict : passes mid with
      | true =>
        obtain ⟨result, value, found⟩ := inductionHypothesis (hi - mid) (by omega) high
          (fun number above => answers number (low.trans above))
          (fun number other above => closed number other (low.trans above)) rfl
        refine ⟨result, value, low.le.trans found.ge, found.le, .inr ?_, found.above⟩
        rcases found.passed with rfl | passed
        · exact verdict
        · exact passed
      | false =>
        obtain ⟨result, value, found⟩ := inductionHypothesis (mid - 1 - lo) (by omega)
          (by omega : lo ≤ mid - 1)
          (fun number above below => answers number above (by omega))
          (fun number other above order below => closed number other above order (by omega)) rfl
        refine ⟨result, value, found.ge, by have bound := found.le; omega, found.passed,
          fun other above below => ?_⟩
        by_cases small : other ≤ mid - 1
        · exact found.above other above small
        · rw [Bool.eq_false_iff]
          intro passed
          have earlier := closed mid other low (by omega) below passed
          rw [verdict] at earlier
          cases earlier
    · rw [if_neg open']
      exact ⟨lo, rfl, le_rfl, ordered, .inl rfl, fun other above below => absurd below (by omega)⟩

end Bisection
