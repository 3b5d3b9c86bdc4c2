import Mathlib
import GraphCalc.Expr.Derivative

/-!
# GraphCalc.Proofs.Expr.Slope

Symbolic differentiation over the real numbers.

Read over `ℝ`, an expression denotes a real function.  The operations are total there, so where an
expression really has a value is a predicate of its own, `Expr.DefinedAt`: no division by zero, no
logarithm of a number that is not positive, no power outside of the domain of real powers.
`Expr.SmoothAt` is the region in which the rules of differentiation are meant to hold.

`HasSlope e e' x` is what each rule carries from its operands to the whole: `e` is defined around
`x`, and `e'` is defined at `x` with the derivative of `e` as its value.

* `HasSlope.sum` and its neighbours — one rule of differentiation each;
* `Expr.hasSlope_differentiate` — so the derivative of a smooth expression is its slope.
-/

namespace GraphCalc

open Topology

/-! ## real arithmetic -/

/-- Exact arithmetic of real numbers. -/
noncomputable instance : Arithmetic ℝ where
  apply
    | .add, a, b => a + b
    | .sub, a, b => a - b
    | .mul, a, b => a * b
    | .div, a, b => a / b
    | .pow, a, b => a ^ b
  call
    | .sin, a => Real.sin a
    | .cos, a => Real.cos a
    | .exp, a => Real.exp a
    | .log, a => Real.log a
  ofInt n := n
  same a b := decide (a = b)

/-- The operation has a real value at its operands.  A negative base has whole powers only, and zero
has no negative ones. -/
def Operator.DefinedOn : Operator → ℝ → ℝ → Prop
  | .div, _, b => b ≠ 0
  | .pow, a, b => 0 < a ∨ (a = 0 ∧ 0 ≤ b) ∨ (a < 0 ∧ ∃ k : ℤ, b = k)
  | _, _, _ => True

/-- The function has a real value at its argument. -/
def Elementary.DefinedOn : Elementary → ℝ → Prop
  | .log, a => 0 < a
  | _, _ => True

namespace Expr

/-- The expression has a real value at `x`: every operation and every call in it has one. -/
def DefinedAt (x : ℝ) : Expr ℝ → Prop
  | var => True
  | const _ => True
  | binary op l r => l.DefinedAt x ∧ r.DefinedAt x ∧ op.DefinedOn (l.eval x) (r.eval x)
  | call fn a => a.DefinedAt x ∧ fn.DefinedOn (a.eval x)

/-! ## the region of smoothness -/

/-- A power with the given exponent has a slope at a base of the given value.  A constant exponent
that is whole allows negative bases, and zero as well if it is at least one. -/
def SmoothPower (exponent : Expr ℝ) (base : ℝ) : Prop :=
  match exponent with
  | const n => 0 < base ∨ ∃ k : ℤ, n = k ∧ (base ≠ 0 ∨ 1 ≤ k)
  | _ => 0 < base

/-- At `x` every divisor is nonzero, every logarithm has a positive argument, and every power has a
base that its exponent allows. -/
def SmoothAt (x : ℝ) : Expr ℝ → Prop
  | var => True
  | const _ => True
  | binary op l r => l.SmoothAt x ∧ r.SmoothAt x ∧
    match op with
    | .div => r.eval x ≠ 0
    | .pow => r.SmoothPower (l.eval x)
    | _ => True
  | call fn a => a.SmoothAt x ∧
    match fn with
    | .log => 0 < a.eval x
    | _ => True

end Expr

/-! ## powers -/

namespace Operator

/-- A positive base has every power. -/
theorem definedOn_pow_of_pos {a : ℝ} (h : 0 < a) (b : ℝ) : pow.DefinedOn a b := .inl h

/-- A base other than zero has every whole power. -/
theorem definedOn_pow_of_ne_zero {a : ℝ} (h : a ≠ 0) (k : ℤ) : pow.DefinedOn a k := by
  rcases lt_or_gt_of_ne h with hneg | hpos
  · exact .inr (.inr ⟨hneg, k, rfl⟩)
  · exact .inl hpos

/-- Every base has the whole powers that are not negative. -/
theorem definedOn_pow_of_nonneg (a : ℝ) {k : ℤ} (h : 0 ≤ k) : pow.DefinedOn a k := by
  by_cases ha : a = 0
  · exact .inr (.inl ⟨ha, Int.cast_nonneg h⟩)
  · exact definedOn_pow_of_ne_zero ha k

end Operator

/-! ## rules -/

open GraphCalc.Expr

/-- Around `x` the expression `e` is defined, and at `x` its derivative is the value of `e'`, which is
defined there. -/
structure HasSlope (e e' : Expr ℝ) (x : ℝ) : Prop where
  near : ∀ᶠ y in 𝓝 x, e.DefinedAt y
  defined : e'.DefinedAt x
  slope : HasDerivAt (fun y => e.eval y) (e'.eval x) x

namespace HasSlope

variable {u v u' v' : Expr ℝ} {x : ℝ}

/-- The expression itself is defined at `x`. -/
theorem here (h : HasSlope u u' x) : u.DefinedAt x := h.near.self_of_nhds

theorem continuousAt (h : HasSlope u u' x) : ContinuousAt (fun y => u.eval y) x :=
  h.slope.continuousAt

theorem identity : HasSlope .var (.num 1) x := by
  refine ⟨.of_forall fun _ => trivial, trivial, (hasDerivAt_id' x).congr_deriv ?_⟩
  exact Int.cast_one.symm

theorem constant (c : ℝ) : HasSlope (.const c) (.num 0) x := by
  refine ⟨.of_forall fun _ => trivial, trivial, (hasDerivAt_const x c).congr_deriv ?_⟩
  exact Int.cast_zero.symm

theorem sum (hu : HasSlope u u' x) (hv : HasSlope v v' x) :
    HasSlope (.binary .add u v) (.binary .add u' v') x where
  near := (hu.near.and hv.near).mono fun _ h => ⟨h.1, h.2, trivial⟩
  defined := ⟨hu.defined, hv.defined, trivial⟩
  slope := hu.slope.add hv.slope

theorem difference (hu : HasSlope u u' x) (hv : HasSlope v v' x) :
    HasSlope (.binary .sub u v) (.binary .sub u' v') x where
  near := (hu.near.and hv.near).mono fun _ h => ⟨h.1, h.2, trivial⟩
  defined := ⟨hu.defined, hv.defined, trivial⟩
  slope := hu.slope.sub hv.slope

theorem product (hu : HasSlope u u' x) (hv : HasSlope v v' x) :
    HasSlope (.binary .mul u v) (.binary .add (.binary .mul u' v) (.binary .mul u v')) x where
  near := (hu.near.and hv.near).mono fun _ h => ⟨h.1, h.2, trivial⟩
  defined := ⟨⟨hu.defined, hv.here, trivial⟩, ⟨hu.here, hv.defined, trivial⟩, trivial⟩
  slope := hu.slope.mul hv.slope

theorem quotient (hu : HasSlope u u' x) (hv : HasSlope v v' x) (hne : v.eval x ≠ 0) :
    HasSlope (.binary .div u v)
      (.binary .div (.binary .sub (.binary .mul u' v) (.binary .mul u v'))
        (.binary .pow v (.num 2))) x := by
  have hsquare : (v.eval x) ^ ((2 : ℤ) : ℝ) = v.eval x ^ 2 := by
    rw [Int.cast_ofNat, Real.rpow_ofNat]
  refine ⟨?_, ⟨⟨⟨hu.defined, hv.here, trivial⟩, ⟨hu.here, hv.defined, trivial⟩, trivial⟩,
    ⟨hv.here, trivial, Operator.definedOn_pow_of_nonneg _ (by decide)⟩, ?_⟩, ?_⟩
  · filter_upwards [hu.near, hv.near, hv.continuousAt.eventually_ne hne] with y hl hr hy
    exact ⟨hl, hr, hy⟩
  · show (v.eval x) ^ ((2 : ℤ) : ℝ) ≠ 0
    rw [hsquare]
    exact pow_ne_zero 2 hne
  · refine (hu.slope.div hv.slope hne).congr_deriv ?_
    rw [← hsquare]
    rfl

/-- A power with a constant exponent.  The base may be negative or zero where the exponent allows
it, and then the power is defined around the point as well. -/
theorem constantPower (hu : HasSlope u u' x) {n : ℝ} (h : SmoothPower (.const n) (u.eval x)) :
    HasSlope (.binary .pow u (.const n))
      (.binary .mul (.binary .mul (.const n) (.binary .pow u (.const (n - 1)))) u') x := by
  have hnear : ∀ᶠ y in 𝓝 x, Operator.pow.DefinedOn (u.eval y) n := by
    rcases h with hpos | ⟨k, rfl, hne | hk⟩
    · exact (hu.continuousAt.eventually_const_lt hpos).mono fun _ h =>
        Operator.definedOn_pow_of_pos h n
    · exact (hu.continuousAt.eventually_ne hne).mono fun _ h =>
        Operator.definedOn_pow_of_ne_zero h k
    · exact .of_forall fun _ => Operator.definedOn_pow_of_nonneg _ (by omega)
  have hless : Operator.pow.DefinedOn (u.eval x) (n - 1) := by
    rcases h with hpos | ⟨k, rfl, hall⟩
    · exact Operator.definedOn_pow_of_pos hpos _
    · rw [← Int.cast_one, ← Int.cast_sub]
      rcases hall with hne | hk
      · exact Operator.definedOn_pow_of_ne_zero hne _
      · exact Operator.definedOn_pow_of_nonneg _ (by omega)
  have hallowed : u.eval x ≠ 0 ∨ 1 ≤ n := by
    rcases h with hpos | ⟨k, rfl, hne | hk⟩
    · exact .inl hpos.ne'
    · exact .inl hne
    · exact .inr (by exact_mod_cast hk)
  refine ⟨(hu.near.and hnear).mono fun _ h => ⟨h.1, trivial, h.2⟩,
    ⟨⟨trivial, ⟨hu.here, trivial, hless⟩, trivial⟩, hu.defined, trivial⟩,
    (hu.slope.rpow_const hallowed).congr_deriv ?_⟩
  show u'.eval x * n * u.eval x ^ (n - 1) = n * u.eval x ^ (n - 1) * u'.eval x
  ring

/-- A power in general, by logarithmic differentiation. -/
theorem power (hu : HasSlope u u' x) (hv : HasSlope v v' x) (hpos : 0 < u.eval x) :
    HasSlope (.binary .pow u v)
      (.binary .mul (.binary .pow u v)
        (.binary .add (.binary .mul v' (.call .log u)) (.binary .mul v (.binary .div u' u)))) x := by
  refine ⟨?_, ⟨⟨hu.here, hv.here, Operator.definedOn_pow_of_pos hpos _⟩,
    ⟨⟨hv.defined, ⟨hu.here, hpos⟩, trivial⟩,
      ⟨hv.here, ⟨hu.defined, hu.here, hpos.ne'⟩, trivial⟩, trivial⟩, trivial⟩,
    (hu.slope.rpow hv.slope hpos).congr_deriv ?_⟩
  · filter_upwards [hu.near, hv.near, hu.continuousAt.eventually_const_lt hpos] with y hl hr hy
    exact ⟨hl, hr, Operator.definedOn_pow_of_pos hy _⟩
  · show u'.eval x * v.eval x * u.eval x ^ (v.eval x - 1) +
        v'.eval x * u.eval x ^ v.eval x * Real.log (u.eval x) =
      u.eval x ^ v.eval x *
        (v'.eval x * Real.log (u.eval x) + v.eval x * (u'.eval x / u.eval x))
    rw [Real.rpow_sub_one hpos.ne']
    ring

theorem sine (hu : HasSlope u u' x) :
    HasSlope (.call .sin u) (.binary .mul (.call .cos u) u') x where
  near := hu.near.mono fun _ h => ⟨h, trivial⟩
  defined := ⟨⟨hu.here, trivial⟩, hu.defined, trivial⟩
  slope := hu.slope.sin

theorem cosine (hu : HasSlope u u' x) :
    HasSlope (.call .cos u) (.binary .mul (.num (-1)) (.binary .mul (.call .sin u) u')) x := by
  refine ⟨hu.near.mono fun _ h => ⟨h, trivial⟩,
    ⟨trivial, ⟨⟨hu.here, trivial⟩, hu.defined, trivial⟩, trivial⟩, hu.slope.cos.congr_deriv ?_⟩
  show -Real.sin (u.eval x) * u'.eval x = ((-1 : ℤ) : ℝ) * (Real.sin (u.eval x) * u'.eval x)
  push_cast
  ring

theorem exponential (hu : HasSlope u u' x) :
    HasSlope (.call .exp u) (.binary .mul (.call .exp u) u') x where
  near := hu.near.mono fun _ h => ⟨h, trivial⟩
  defined := ⟨⟨hu.here, trivial⟩, hu.defined, trivial⟩
  slope := hu.slope.exp

theorem logarithm (hu : HasSlope u u' x) (hpos : 0 < u.eval x) :
    HasSlope (.call .log u) (.binary .mul (.binary .div (.num 1) u) u') x := by
  refine ⟨?_, ⟨⟨trivial, hu.here, hpos.ne'⟩, hu.defined, trivial⟩,
    (hu.slope.log hpos.ne').congr_deriv ?_⟩
  · filter_upwards [hu.near, hu.continuousAt.eventually_const_lt hpos] with y h hy
    exact ⟨h, hy⟩
  · show u'.eval x / u.eval x = ((1 : ℤ) : ℝ) / u.eval x * u'.eval x
    push_cast
    ring

end HasSlope

/-! ## differentiation -/

namespace Expr

/-- Which rule differentiates a power depends on whether the exponent is a constant, and so does
what is asked of the base. -/
theorem hasSlope_power {u v u' v' : Expr ℝ} {x : ℝ} (hu : HasSlope u u' x)
    (hv : HasSlope v v' x) (h : v.SmoothPower (u.eval x)) :
    HasSlope (.binary .pow u v) (powerDerivative u v u' v') x := by
  cases v with
  | const n =>
      have hone : powerDerivative u (.const n) u' v' =
          .binary .mul (.binary .mul (.const n) (.binary .pow u (.const (n - 1)))) u' := by
        rw [powerDerivative]
        simp only [Arithmetic.apply, Arithmetic.ofInt, Int.cast_one]
      rw [hone]
      exact hu.constantPower h
  | var | binary | call => exact hu.power hv h

/-- An expression that is smooth at a point is defined around it.  Its symbolic derivative is
defined at the point, and the value there is the derivative of the function that the expression
denotes. -/
theorem hasSlope_differentiate {e : Expr ℝ} {x : ℝ} (h : e.SmoothAt x) :
    (∀ᶠ y in 𝓝 x, e.DefinedAt y) ∧ e.differentiate.DefinedAt x ∧
      HasDerivAt (fun y => e.eval y) (e.differentiate.eval x) x := by
  suffices hslope : HasSlope e e.differentiate x from
    ⟨hslope.near, hslope.defined, hslope.slope⟩
  induction e with
  | var => exact .identity
  | const c => exact .constant c
  | binary op u v ihu ihv =>
      obtain ⟨hu, hv, hop⟩ := h
      have hu := ihu hu
      have hv := ihv hv
      cases op with
      | add => exact hu.sum hv
      | sub => exact hu.difference hv
      | mul => exact hu.product hv
      | div => exact hu.quotient hv hop
      | pow => exact hasSlope_power hu hv hop
  | call fn u ih =>
      obtain ⟨hu, hfn⟩ := h
      have hu := ih hu
      cases fn with
      | sin => exact hu.sine
      | cos => exact hu.cosine
      | exp => exact hu.exponential
      | log => exact hu.logarithm hfn

/-- A cube is smooth where its base is negative, and may be divided by a logarithm that is not
zero. -/
theorem hasSlope_cube_over_logarithm :
    let e : Expr ℝ := binary .div (binary .pow var (const 3)) (call .log (binary .add var (const 3)))
    e.SmoothAt (-1) ∧ (∀ᶠ y in 𝓝 (-1), e.DefinedAt y) ∧ e.differentiate.DefinedAt (-1) ∧
      HasDerivAt (fun y => y ^ (3 : ℝ) / Real.log (y + 3)) (e.differentiate.eval (-1)) (-1) := by
  intro e
  have htwo : (-1 : ℝ) + 3 = 2 := by norm_num
  have hlog : Real.log (-1 + 3) ≠ 0 := by
    rw [htwo]
    exact (Real.log_pos one_lt_two).ne'
  have hbase : SmoothPower (const 3) (-1) := .inr ⟨3, by norm_num, .inr (by decide)⟩
  have hargument : (0 : ℝ) < -1 + 3 := by norm_num
  have hsmooth : e.SmoothAt (-1) :=
    ⟨⟨trivial, trivial, hbase⟩, ⟨⟨trivial, trivial, trivial⟩, hargument⟩, hlog⟩
  exact ⟨hsmooth, hasSlope_differentiate hsmooth⟩

end Expr

end GraphCalc
