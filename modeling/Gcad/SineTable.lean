import Mathlib

/-!
# Certified tables of sines

Fixed-point approximations of the point of the unit circle at an angle,
with an error bound that is carried along. The Taylor sums give the first
point, the addition formulas give one multiple of the angle after the
other, and an integer comparison certifies that a table entry is the
integer part of the scaled sine.
-/

namespace Gcad.SineTable

open Finset

/-- Even half of the Taylor sum of the exponential at `x*I`. -/
def cosSum (x : ℚ) : ℕ → ℚ
  | 0 => 0
  | k+1 => cosSum x k+(-1)^k*x^(2*k)/(2*k).factorial

/-- Odd half of the Taylor sum of the exponential at `x*I`. -/
def sinSum (x : ℚ) : ℕ → ℚ
  | 0 => 0
  | k+1 => sinSum x k+(-1)^k*x^(2*k+1)/(2*k+1).factorial

/-- Bound for the rest of the Taylor sum after `n` terms. -/
def slack (n : ℕ) : ℚ := n.succ*(n.factorial*n : ℚ)⁻¹

/-- A point of the circle in fixed-point coordinates. -/
structure Point where
  /-- Scaled cosine. -/
  cos : ℤ
  /-- Scaled sine. -/
  sin : ℤ

/-- A fixed-point approximation of the point at an angle. -/
structure Near (scale err : ℕ) (p : Point) (x : ℝ) : Prop where
  /-- Error of the cosine. -/
  cos : |scale*Real.cos x-p.cos| ≤ err
  /-- Error of the sine. -/
  sin : |scale*Real.sin x-p.sin| ≤ err

/-- The point given by the Taylor sums. -/
def start (scale : ℕ) (x : ℚ) (k : ℕ) : Point := ⟨⌊scale*cosSum x k⌋,⌊scale*sinSum x k⌋⟩

/-- The point at the sum of two angles. -/
def compose (scale : ℕ) (p q : Point) : Point :=
  ⟨(p.cos*q.cos-p.sin*q.sin)/scale,(p.sin*q.cos+p.cos*q.sin)/scale⟩

/-- Error of the point at the sum of two angles. -/
def grown (e f : ℕ) : ℕ := 2*e+2*f+2*e*f+1

/-- Compare a table with the multiples of an angle that follow a point. -/
def certify (scale unit : ℕ) (step : Point) (f : ℕ) : Point → ℕ → List ℕ → Bool
  | _,_,[] => true
  | p,e,t::rest => decide (t*unit+e ≤ p.sin.natAbs) && decide (p.sin.natAbs+e < (t+1)*unit) &&
      certify scale unit step f (compose scale p step) (grown e f) rest

section Taylor

/-- The two halves are the Taylor sum. -/
theorem taylor_split (x : ℚ) (k : ℕ) :
    ∑ m ∈ range (2*k),((x : ℂ)*Complex.I)^m/m.factorial=
      (cosSum x k : ℂ)+(sinSum x k : ℂ)*Complex.I := by
  induction k with
  | zero => simp only [Nat.mul_zero,range_zero,sum_empty,cosSum,sinSum,Rat.cast_zero,zero_mul,
      add_zero]
  | succ k ih =>
    have heven : ((x : ℂ)*Complex.I)^(2*k)=(-1)^k*(x : ℂ)^(2*k) := by
      rw [mul_pow,pow_mul Complex.I,Complex.I_sq,mul_comm]
    have hodd : ((x : ℂ)*Complex.I)^(2*k+1)=(-1)^k*(x : ℂ)^(2*k+1)*Complex.I := by
      rw [pow_succ,heven,pow_succ]
      ring
    have hrange : 2*(k+1)=2*k+1+1 := by ring
    rw [hrange,sum_range_succ,sum_range_succ,ih,heven,hodd,cosSum,sinSum]
    push_cast
    ring

/-- The Taylor sums approximate cosine and sine of a small angle. -/
theorem taylor_near {x : ℚ} (hx : |x| ≤ 1) {k : ℕ} (hk : 0 < k) :
    |Real.cos x-cosSum x k| ≤ slack (2*k) ∧ |Real.sin x-sinSum x k| ≤ slack (2*k) := by
  have hnorm : ‖(x : ℂ)*Complex.I‖ ≤ 1 := by
    rw [norm_mul,Complex.norm_I,mul_one,Complex.norm_ratCast]
    exact_mod_cast hx
  have hbound := Complex.exp_bound hnorm (by omega : 0 < 2*k)
  have hslack : ‖(x : ℂ)*Complex.I‖^(2*k)*((2*k).succ*((2*k).factorial*(2*k : ℕ) : ℝ)⁻¹) ≤
      (slack (2*k) : ℝ) := by
    have hone : ‖(x : ℂ)*Complex.I‖^(2*k) ≤ 1 := pow_le_one₀ (norm_nonneg _) hnorm
    have hcast : (slack (2*k) : ℝ)=(2*k).succ*((2*k).factorial*(2*k : ℕ) : ℝ)⁻¹ := by
      rw [slack]
      push_cast
      rfl
    rw [hcast]
    exact mul_le_of_le_one_left (by positivity) hone
  have hexp : Complex.exp ((x : ℂ)*Complex.I)=
      (Real.cos x : ℂ)+(Real.sin x : ℂ)*Complex.I := by
    rw [Complex.exp_mul_I,Complex.ofReal_cos,Complex.ofReal_sin,Complex.ofReal_ratCast]
  have hdiff : (Real.cos x : ℂ)+(Real.sin x : ℂ)*Complex.I-
      ((cosSum x k : ℂ)+(sinSum x k : ℂ)*Complex.I)=
      ((Real.cos x-cosSum x k : ℝ) : ℂ)+((Real.sin x-sinSum x k : ℝ) : ℂ)*Complex.I := by
    push_cast
    ring
  rw [taylor_split,hexp,hdiff,←Complex.mk_eq_add_mul_I] at hbound
  have hre := (Complex.abs_re_le_norm _).trans (hbound.trans hslack)
  have him := (Complex.abs_im_le_norm _).trans (hbound.trans hslack)
  exact ⟨hre,him⟩

end Taylor

section Point

variable {scale e f : ℕ} {p q : Point} {x y : ℝ}

/-- Rounding down loses less than one. -/
theorem abs_sub_floor_le (r : ℝ) : |r-⌊r⌋| ≤ 1 := by
  have hlow := Int.floor_le r
  have hhigh := Int.lt_floor_add_one r
  rw [abs_le]
  constructor <;> linarith

/-- A scaled approximation that is rounded down. -/
theorem floor_near {r : ℝ} {s : ℚ} {d : ℚ} (h : |r-s| ≤ d) (hd : scale*d ≤ 1) :
    |scale*r-⌊scale*s⌋| ≤ (2 : ℕ) := by
  have hfloor := abs_sub_floor_le ((scale*s : ℚ) : ℝ)
  rw [Rat.floor_cast] at hfloor
  have hscaled : |scale*r-((scale*s : ℚ) : ℝ)| ≤ 1 := by
    have hcast : scale*r-((scale*s : ℚ) : ℝ)=scale*(r-s) := by
      push_cast
      ring
    have hone : (scale*d : ℝ) ≤ 1 := by exact_mod_cast hd
    rw [hcast,abs_mul,Nat.abs_cast]
    exact (mul_le_mul_of_nonneg_left h (Nat.cast_nonneg scale)).trans hone
  have htriangle := abs_sub_le (scale*r) ((scale*s : ℚ) : ℝ) (⌊scale*s⌋ : ℤ)
  have htwo : ((2 : ℕ) : ℝ)=1+1 := by norm_num
  rw [htwo]
  exact htriangle.trans (add_le_add hscaled hfloor)

/-- The first point is within two units of the circle. -/
theorem start_near {x : ℚ} (hx : |x| ≤ 1) {k : ℕ} (hk : 0 < k) (hscale : scale*slack (2*k) ≤ 1) :
    Near scale 2 (start scale x k) x := by
  obtain ⟨hcos,hsin⟩ := taylor_near hx hk
  exact ⟨floor_near hcos hscale,floor_near hsin hscale⟩

/-- The scaled product of two coordinates. -/
theorem mul_near {u v : ℝ} {a b : ℤ} (hu : |scale*u-a| ≤ e) (hv : |scale*v-b| ≤ f)
    (hu1 : |u| ≤ 1) (hv1 : |v| ≤ 1) :
    |scale*(scale*(u*v))-a*b| ≤ scale*e+(scale+e)*f := by
  have hsplit : scale*(scale*(u*v))-a*b=(scale*u-a)*(scale*v)+a*(scale*v-b) := by ring
  have hcast : (0 : ℝ) ≤ scale := Nat.cast_nonneg scale
  have hscaled : |scale*v| ≤ scale := by
    rw [abs_mul,Nat.abs_cast]
    exact mul_le_of_le_one_right hcast hv1
  have ha : |(a : ℝ)| ≤ scale+e := by
    have hbound : |scale*u| ≤ scale := by
      rw [abs_mul,Nat.abs_cast]
      exact mul_le_of_le_one_right hcast hu1
    rw [abs_le] at hbound hu ⊢
    constructor <;> linarith
  calc |scale*(scale*(u*v))-a*b| ≤ |(scale*u-a)*(scale*v)|+|a*(scale*v-b)| := by
        rw [hsplit]
        exact abs_add_le _ _
    _ ≤ e*scale+(scale+e)*f := by
        rw [abs_mul (scale*u-a),abs_mul (a : ℝ)]
        have hleft := mul_le_mul hu hscaled (abs_nonneg _) (Nat.cast_nonneg e)
        have hright := mul_le_mul ha hv (abs_nonneg _) (by positivity)
        exact add_le_add hleft hright
    _ = scale*e+(scale+e)*f := by ring

/-- A quotient that is rounded down, from the error of the dividend. -/
theorem div_near (hscale : 0 < scale) {r : ℝ} {a : ℤ}
    (h : |scale*(scale*r)-a| ≤ 2*(scale*e+(scale+e)*f)) :
    |scale*r-(a/(scale : ℤ) : ℤ)| ≤ grown e f := by
  have hpos : (1 : ℝ) ≤ scale := by exact_mod_cast hscale
  have hquotient : (a/(scale : ℤ) : ℤ)=⌊(a : ℝ)/scale⌋ := by
    have hfloor := Int.floor_div_natCast (a : ℝ) scale
    rw [hfloor,Int.floor_intCast]
  have hround := abs_sub_floor_le ((a : ℝ)/scale)
  have hdiv : |scale*r-a/scale| ≤ 2*e+2*f+2*e*f := by
    have hcancel : scale*r-a/scale=(scale*(scale*r)-a)/scale := by
      field_simp
    rw [hcancel,abs_div,Nat.abs_cast,div_le_iff₀ (by linarith)]
    have hprod : (e : ℝ)*f ≤ e*f*scale := le_mul_of_one_le_right (by positivity) hpos
    calc |scale*(scale*r)-a| ≤ 2*(scale*e+(scale+e)*f) := h
      _ ≤ (2*e+2*f+2*e*f)*scale := by linarith
  have htriangle := abs_sub_le (scale*r) ((a : ℝ)/scale) ⌊(a : ℝ)/scale⌋
  have hgrown : (grown e f : ℝ)=2*e+2*f+2*e*f+1 := by
    rw [grown]
    push_cast
    rfl
  rw [hquotient,hgrown]
  exact htriangle.trans (add_le_add hdiv hround)

/-- The addition formulas on approximations. -/
theorem compose_near (hscale : 0 < scale) (hp : Near scale e p x) (hq : Near scale f q y) :
    Near scale (grown e f) (compose scale p q) (x+y) := by
  have hcc := mul_near hp.cos hq.cos (Real.abs_cos_le_one x) (Real.abs_cos_le_one y)
  have hss := mul_near hp.sin hq.sin (Real.abs_sin_le_one x) (Real.abs_sin_le_one y)
  have hsc := mul_near hp.sin hq.cos (Real.abs_sin_le_one x) (Real.abs_cos_le_one y)
  have hcs := mul_near hp.cos hq.sin (Real.abs_cos_le_one x) (Real.abs_sin_le_one y)
  constructor
  · apply div_near hscale
    rw [Real.cos_add]
    push_cast
    rw [abs_le] at hcc hss ⊢
    constructor <;> linarith
  · apply div_near hscale
    rw [Real.sin_add]
    push_cast
    rw [abs_le] at hsc hcs ⊢
    constructor <;> linarith

/-- The integer comparison gives the integer part. -/
theorem floor_sin {unit t : ℕ} (hunit : 0 < unit) {m : ℕ} (hscale : scale=m*unit)
    (hp : Near scale e p x) (hlow : t*unit+e ≤ p.sin.natAbs)
    (hhigh : p.sin.natAbs+e < (t+1)*unit) : ⌊(m : ℝ)*|Real.sin x|⌋₊=t := by
  have hsin : |scale*|Real.sin x|-p.sin.natAbs| ≤ e := by
    have hleft : (scale : ℝ)*|Real.sin x|=|scale*Real.sin x| := by rw [abs_mul,Nat.abs_cast]
    have hright : (p.sin.natAbs : ℝ)=|(p.sin : ℝ)| := by
      rw [Nat.cast_natAbs,Int.cast_abs]
    rw [hleft,hright]
    exact (abs_abs_sub_abs_le _ _).trans hp.sin
  have hlow' : (t : ℝ)*unit+e ≤ p.sin.natAbs := by exact_mod_cast hlow
  have hhigh' : (p.sin.natAbs : ℝ)+e < (t+1)*unit := by exact_mod_cast hhigh
  have hpos : (0 : ℝ) < unit := by exact_mod_cast hunit
  have hcast : (scale : ℝ)=m*unit := by rw [hscale,Nat.cast_mul]
  rw [hcast,abs_le] at hsin
  rw [Nat.floor_eq_iff (by positivity)]
  constructor
  · apply le_of_mul_le_mul_right _ hpos
    linarith
  · apply lt_of_mul_lt_mul_right _ hpos.le
    linarith

/-- Every entry of a certified table is the integer part of its sine. -/
theorem certify_floor {unit m : ℕ} (hunit : 0 < unit) (hm : 0 < m) (hscale : scale=m*unit)
    (hq : Near scale f q y) {table : List ℕ} (hp : Near scale e p x)
    (h : certify scale unit q f p e table=true) {i t : ℕ} (hi : table[i]?=some t) :
    ⌊(m : ℝ)*|Real.sin (x+i*y)|⌋₊=t := by
  have hpos : 0 < scale := hscale ▸ Nat.mul_pos hm hunit
  induction table generalizing p e x i with
  | nil => cases hi
  | cons t' rest ih =>
    rw [certify,Bool.and_eq_true,Bool.and_eq_true,decide_eq_true_eq,decide_eq_true_eq] at h
    obtain ⟨⟨hlow,hhigh⟩,hrest⟩ := h
    cases i with
    | zero =>
      rw [List.getElem?_cons_zero,Option.some.injEq] at hi
      subst hi
      rw [Nat.cast_zero,zero_mul,add_zero]
      exact floor_sin hunit hscale hp hlow hhigh
    | succ i =>
      rw [List.getElem?_cons_succ] at hi
      have hnext := ih (compose_near hpos hp hq) hrest hi
      have hangle : x+(i+1 : ℕ)*y=x+y+i*y := by
        push_cast
        ring
      rw [hangle]
      exact hnext

end Point

end Gcad.SineTable
