import Mathlib
import GrainDirectory.Partition
set_option autoImplicit false

/-!
# Tags as counts

The tag that comes next is one more than the number of insertions so far, up to the greatest tag there
is (`tagAfter_tagAt`).  Below that, tags tell insertions apart and are in their order.
-/

namespace GrainDirectory

/-- The tag that comes next after so many insertions. -/
def tagAt (insertions : Nat) : Int32 := Int32.ofNat (min (insertions + 1) (2 ^ 31 - 1))

theorem toInt_tagAt (n : Nat) : (tagAt n).toInt = min (n + 1) (2 ^ 31 - 1) := by
  rw [tagAt, Int32.toInt_ofNat_of_lt (by omega)]

theorem tagAfter_tagAt (n : Nat) : Partition.tagAfter (tagAt n) = tagAt (n + 1) := by
  have hmax : Int32.maxValue.toInt = 2 ^ 31 - 1 := by decide
  have hn := toInt_tagAt n
  have hnext := toInt_tagAt (n + 1)
  unfold Partition.tagAfter
  split
  · rename_i h
    rw [h, hmax] at hn
    rw [← Int32.toInt_inj, hnext, h, hmax]
    omega
  · rename_i h
    have hne : (tagAt n).toInt ≠ 2 ^ 31 - 1 := fun heq =>
      h (Int32.toInt_inj.mp (heq.trans hmax.symm))
    rw [← Int32.toInt_inj, Int32.toInt_add, hnext, hn, Int32.toInt_one, Int.bmod_eq_of_le] <;> omega

/-! ## The order of tags -/

theorem tagAt_le {m n : Nat} (h : m ≤ n) : tagAt m ≤ tagAt n := by
  rw [Int32.le_iff_toInt_le, toInt_tagAt, toInt_tagAt]
  omega

theorem zero_lt_tagAt (n : Nat) : 0 < tagAt n := by
  rw [Int32.lt_iff_toInt_lt, toInt_tagAt, Int32.toInt_zero]
  omega

theorem tagAt_lt_maxValue_iff {n : Nat} : tagAt n < Int32.maxValue ↔ n + 1 < 2 ^ 31 - 1 := by
  have hmax : Int32.maxValue.toInt = 2 ^ 31 - 1 := by decide
  rw [Int32.lt_iff_toInt_lt, toInt_tagAt, hmax]
  omega

/-- Below the greatest tag, tags are in the order of their insertions. -/
theorem tagAt_lt_tagAt_iff {m n : Nat} (h : tagAt m < Int32.maxValue) :
    tagAt m < tagAt n ↔ m < n := by
  have hm := tagAt_lt_maxValue_iff.mp h
  rw [Int32.lt_iff_toInt_lt, toInt_tagAt, toInt_tagAt]
  omega

theorem tagAt_inj {m n : Nat} (h : tagAt m < Int32.maxValue) : tagAt m = tagAt n ↔ m = n := by
  have hm := tagAt_lt_maxValue_iff.mp h
  rw [← Int32.toInt_inj, toInt_tagAt, toInt_tagAt]
  omega

end GrainDirectory
