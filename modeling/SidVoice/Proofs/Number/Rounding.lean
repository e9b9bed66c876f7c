import Mathlib

/-!
# Rounding of real numbers

A real number is rounded to twenty-four significant binary digits: it is divided by the value of
its last place, the nearest integer is taken, the even one of two that are equally near, and the
last place is multiplied back in. Places below the least one do not exist, so small numbers keep
fewer digits. What is then too large for single precision is infinite.

Rounding is a relation here and not a function, because the operations on single-precision numbers
each find the rounded number in their own way. All that the order of numbers needs is that the
relation respects order; so equal numbers round to equal ones. No bound on the error is proved.
-/

namespace SidVoice.Number

/-- An integer nearest to a real number, and of two that are equally near the even one. -/
def Nearest (x : ℝ) (n : ℤ) : Prop :=
  |x - n| < 1 / 2 ∨ |x - n| = 1 / 2 ∧ Even n

section Nearest

variable {x y : ℝ} {m n : ℤ}

theorem Nearest.abs_sub_le (h : Nearest x n) : |x - n| ≤ 1 / 2 := by
  obtain hnear | ⟨htie, -⟩ := h
  · exact hnear.le
  · exact htie.le

theorem nearest_intCast (n : ℤ) : Nearest n n := by
  left
  norm_num

theorem Nearest.neg (h : Nearest x n) : Nearest (-x) (-n) := by
  have hsame : |-x - ((-n : ℤ) : ℝ)| = |x - n| := by
    rw [← abs_neg]
    congr 1
    push_cast
    ring
  rwa [Nearest, hsame, even_neg]

/-- The nearest integer of a number that is not greater is not greater. -/
theorem Nearest.le (hx : Nearest x m) (hy : Nearest y n) (h : x ≤ y) : m ≤ n := by
  by_contra hlt
  have hsucc : n + 1 ≤ m := by omega
  have hgap : (n : ℝ) + 1 ≤ m := by exact_mod_cast hsucc
  have hleft := abs_le.mp hx.abs_sub_le
  have hright := abs_le.mp hy.abs_sub_le
  -- both numbers are the midpoint of two consecutive integers, and not both of these are even
  have hnext : m = n + 1 := by
    have hreal : (m : ℝ) = n + 1 := by linarith
    exact_mod_cast hreal
  have hleftTie : |x - m| = 1 / 2 := by
    rw [abs_of_nonpos (by linarith)]
    linarith
  have hrightTie : |y - n| = 1 / 2 := by
    rw [abs_of_nonneg (by linarith)]
    linarith
  have hevenLeft : Even m := (hx.resolve_left hleftTie.not_lt).2
  have hevenRight : Even n := (hy.resolve_left hrightTie.not_lt).2
  rw [hnext] at hevenLeft
  exact Int.even_add_one.mp hevenLeft hevenRight

theorem Nearest.le_of_le_intCast (hx : Nearest x m) (h : x ≤ n) : m ≤ n :=
  hx.le (nearest_intCast n) h

theorem Nearest.le_of_intCast_le (hx : Nearest x m) (h : n ≤ x) : n ≤ m :=
  (nearest_intCast n).le hx h

end Nearest

/-- The number with a mantissa and an exponent. -/
noncomputable def magnitude (mantissa : ℕ) (exponent : ℤ) : ℝ := mantissa * 2 ^ exponent

/-- The last of the places of a number that single precision keeps: there are twenty-four digits
up to it, or it is the least place of all. -/
structure LastPlace (place : ℤ) (x : ℝ) : Prop where
  least : -149 ≤ place
  abs_lt : |x| < 2 ^ (place + 24)
  le_abs : place ≠ -149 → 2 ^ (place + 23) ≤ |x|

section LastPlace

variable {place place' : ℤ} {x y : ℝ}

theorem two_zpow_pos (place : ℤ) : (0 : ℝ) < 2 ^ place := zpow_pos two_pos place

theorem magnitude_nonneg (mantissa : ℕ) (exponent : ℤ) : 0 ≤ magnitude mantissa exponent :=
  mul_nonneg (Nat.cast_nonneg mantissa) (two_zpow_pos exponent).le

theorem two_zpow_add (place : ℤ) (n : ℕ) : (2 : ℝ) ^ (place + n) = 2 ^ n * 2 ^ place := by
  rw [zpow_add₀ two_ne_zero, zpow_natCast, mul_comm]

/-- A number that is not larger has no higher last place. -/
theorem LastPlace.le (hx : LastPlace place x) (hy : LastPlace place' y) (h : |x| ≤ |y|) :
    place ≤ place' := by
  by_cases hleast : place = -149
  · exact hleast ▸ hy.least
  · have hpow : (2 : ℝ) ^ (place + 23) < 2 ^ (place' + 24) :=
      ((hx.le_abs hleast).trans h).trans_lt hy.abs_lt
    have hplace := (zpow_lt_zpow_iff_right₀ one_lt_two).mp hpow
    omega

theorem LastPlace.neg (h : LastPlace place x) : LastPlace place (-x) := by
  refine ⟨h.least, ?_, ?_⟩
  · rw [abs_neg]
    exact h.abs_lt
  · rw [abs_neg]
    exact h.le_abs

/-- A number is at most two to the twenty-fourth of its last places, and so is the nearest
integer. -/
theorem LastPlace.nearest_le {n : ℤ} (h : LastPlace place x)
    (hnearest : Nearest (x / 2 ^ place) n) : n ≤ 2 ^ 24 := by
  apply hnearest.le_of_le_intCast
  have hx : x < 2 ^ 24 * 2 ^ place := by
    rw [← two_zpow_add place 24]
    exact (le_abs_self x).trans_lt h.abs_lt
  rw [div_le_iff₀ (two_zpow_pos place)]
  exact_mod_cast hx.le

/-- Above the least place a number is at least two to the twenty-third of its last places, and so
is the nearest integer. -/
theorem LastPlace.le_nearest {n : ℤ} (h : LastPlace place x) (hleast : place ≠ -149) (hx : 0 ≤ x)
    (hnearest : Nearest (x / 2 ^ place) n) : 2 ^ 23 ≤ n := by
  apply hnearest.le_of_intCast_le
  have hx : 2 ^ 23 * 2 ^ place ≤ x := by
    rw [← two_zpow_add place 23, ← abs_of_nonneg hx]
    exact h.le_abs hleast
  rw [le_div_iff₀ (two_zpow_pos place)]
  exact_mod_cast hx

end LastPlace

/-- The second number is the first, rounded to its last place. -/
def Rounded (x z : ℝ) : Prop :=
  ∃ place n : ℤ, LastPlace place x ∧ Nearest (x / 2 ^ place) n ∧ z = n * 2 ^ place

section Rounded

variable {x y z z' : ℝ}

theorem Rounded.neg (h : Rounded x z) : Rounded (-x) (-z) := by
  obtain ⟨place, n, hplace, hnearest, rfl⟩ := h
  refine ⟨place, -n, hplace.neg, ?_, ?_⟩
  · rw [neg_div]
    exact hnearest.neg
  · push_cast
    ring

/-- A number rounds to itself if it is a multiple of its last place. -/
theorem rounded_self {place n : ℤ} (h : LastPlace place (n * 2 ^ place)) :
    Rounded (n * 2 ^ place) (n * 2 ^ place) := by
  refine ⟨place, n, h, ?_, rfl⟩
  rw [mul_div_cancel_right₀ _ (two_zpow_pos place).ne']
  exact nearest_intCast n

theorem rounded_zero : Rounded 0 0 := by
  have hplace : LastPlace (-149) ((0 : ℤ) * 2 ^ (-149 : ℤ)) := by
    refine ⟨le_rfl, ?_, fun h => absurd rfl h⟩
    rw [Int.cast_zero, zero_mul, abs_zero]
    exact two_zpow_pos _
  have hzero := rounded_self hplace
  rwa [Int.cast_zero, zero_mul] at hzero

theorem Rounded.nonneg (h : Rounded x z) (hx : 0 ≤ x) : 0 ≤ z := by
  obtain ⟨place, n, -, hnearest, rfl⟩ := h
  have hquotient : ((0 : ℤ) : ℝ) ≤ x / 2 ^ place := by
    rw [Int.cast_zero]
    exact div_nonneg hx (two_zpow_pos place).le
  have hn : (0 : ℝ) ≤ n := by exact_mod_cast hnearest.le_of_intCast_le hquotient
  exact mul_nonneg hn (two_zpow_pos place).le

theorem Rounded.nonpos (h : Rounded x z) (hx : x ≤ 0) : z ≤ 0 :=
  neg_nonneg.mp (h.neg.nonneg (neg_nonneg.mpr hx))

theorem Rounded.le_of_nonneg (hx : Rounded x z) (hy : Rounded y z') (hnonneg : 0 ≤ x)
    (h : x ≤ y) : z ≤ z' := by
  have hpos : 0 ≤ y := hnonneg.trans h
  obtain ⟨place, m, hplace, hnearest, rfl⟩ := hx
  obtain ⟨place', n, hplace', hnearest', rfl⟩ := hy
  have habs : |x| ≤ |y| := by rwa [abs_of_nonneg hnonneg, abs_of_nonneg hpos]
  obtain rfl | hlt := (hplace.le hplace' habs).eq_or_lt
  · have hmn : (m : ℝ) ≤ n := by
      exact_mod_cast hnearest.le hnearest' ((div_le_div_iff_of_pos_right (two_zpow_pos _)).mpr h)
    exact mul_le_mul_of_nonneg_right hmn (two_zpow_pos _).le
  · -- the numbers have different last places, and a power of two lies between the rounded ones
    have hleast : place' ≠ -149 := by
      have := hplace.least
      omega
    have hm : (m : ℝ) ≤ 2 ^ 24 := by exact_mod_cast hplace.nearest_le hnearest
    have hn : (2 : ℝ) ^ 23 ≤ n := by exact_mod_cast hplace'.le_nearest hleast hpos hnearest'
    calc m * (2 : ℝ) ^ place ≤ 2 ^ 24 * 2 ^ place :=
          mul_le_mul_of_nonneg_right hm (two_zpow_pos _).le
      _ = 2 ^ (place + 24) := (two_zpow_add place 24).symm
      _ ≤ 2 ^ (place' + 23) := zpow_le_zpow_right₀ one_le_two (by omega)
      _ = 2 ^ 23 * 2 ^ place' := two_zpow_add place' 23
      _ ≤ n * 2 ^ place' := mul_le_mul_of_nonneg_right hn (two_zpow_pos _).le

/-- The rounded number of one that is not greater is not greater. -/
theorem Rounded.le (hx : Rounded x z) (hy : Rounded y z') (h : x ≤ y) : z ≤ z' := by
  rcases le_total 0 x with hnonneg | hnonpos
  · exact hx.le_of_nonneg hy hnonneg h
  · rcases le_total 0 y with hpos | hneg
    · exact (hx.nonpos hnonpos).trans (hy.nonneg hpos)
    · exact neg_le_neg_iff.mp
        (hy.neg.le_of_nonneg hx.neg (neg_nonneg.mpr hneg) (neg_le_neg h))

end Rounded

/-- What a rounded number is in single precision: infinite if it is too large. -/
noncomputable def clip (z : ℝ) : EReal :=
  if 2 ^ 128 ≤ z then ⊤ else if z ≤ -2 ^ 128 then ⊥ else z

theorem clip_of_abs_lt {z : ℝ} (h : |z| < 2 ^ 128) : clip z = z := by
  obtain ⟨hlower, hupper⟩ := abs_lt.mp h
  rw [clip, if_neg hupper.not_ge, if_neg hlower.not_ge]

theorem clip_of_le {z : ℝ} (h : 2 ^ 128 ≤ z) : clip z = ⊤ := if_pos h

theorem clip_of_le_neg {z : ℝ} (h : z ≤ -2 ^ 128) : clip z = ⊥ := by
  have hnot : ¬ 2 ^ 128 ≤ z := by
    have : (0 : ℝ) < 2 ^ 128 := by positivity
    linarith
  rw [clip, if_neg hnot, if_pos h]

theorem clip_le {z z' : ℝ} (h : z ≤ z') : clip z ≤ clip z' := by
  by_cases htop : 2 ^ 128 ≤ z'
  · rw [clip_of_le htop]
    exact le_top
  · by_cases hbot : z ≤ -2 ^ 128
    · rw [clip_of_le_neg hbot]
      exact bot_le
    · rw [clip, clip, if_neg (fun hz => htop (hz.trans h)), if_neg hbot, if_neg htop,
        if_neg (fun hz => hbot (h.trans hz))]
      exact EReal.coe_le_coe_iff.mpr h

/-- What the exact result of an operation is in single precision. -/
inductive RoundsTo : EReal → EReal → Prop
  | top : RoundsTo ⊤ ⊤
  | bot : RoundsTo ⊥ ⊥
  | real {x z : ℝ} (h : Rounded x z) : RoundsTo x (clip z)

/-- Single precision respects the order of exact results. -/
theorem RoundsTo.le {a b a' b' : EReal} (ha : RoundsTo a a') (hb : RoundsTo b b') (h : a ≤ b) :
    a' ≤ b' := by
  cases ha with
  | bot => exact bot_le
  | top =>
    cases hb with
    | top => exact le_rfl
    | bot => exact absurd h (by simp)
    | real => exact absurd h (EReal.coe_lt_top _).not_ge
  | real hx =>
    cases hb with
    | top => exact le_top
    | bot => exact absurd h (EReal.bot_lt_coe _).not_ge
    | real hy => exact clip_le (hx.le hy (EReal.coe_le_coe_iff.mp h))

end SidVoice.Number
