import HiddenEquation.Decimal.Binary64
import Mathlib.Algebra.Group.Nat.Defs

/-!
# Doubles between their bits and their parts

Arithmetic on doubles is defined on numbers in which sign, significand and exponent lie
apart, and packs its result into 64 bits.  `Canonical` says which of these numbers the bits
can hold, each in the one way in which they hold it.

* `Binary64.ofFloat_eq_ofUnpacked` : reading a double off its bits is unpacking it.
* `unpack_pack` : a canonical number survives packing.
-/

namespace HiddenEquation.Decimal

open Float.Model

/-- Whether a sign is that of a negative number. -/
def isNegative : UnpackedFloat.Sign → Bool
  | .negative => true
  | .positive => false

/-- The numbers that 64 bits can hold, each in the form in which they hold it. -/
inductive Canonical : UnpackedFloat → Prop
  | notANumber : Canonical .notANumber
  | infinity (s : UnpackedFloat.Sign) : Canonical (.infinity s)
  | zero (s : UnpackedFloat.Sign) : Canonical (.zero s)
  | finite (s : UnpackedFloat.Sign) {m : Nat} {e : Int} (hpos : 0 < m) (hm : m < 2 ^ 53)
    (hlo : -1074 ≤ e) (hhi : e ≤ 971) (hnormal : 2 ^ 52 ≤ m ∨ e = -1074) :
    Canonical (.finite s m e hpos)

theorem Canonical.neg {q : UnpackedFloat} (hq : Canonical q) : Canonical q.neg := by
  cases hq with
  | notANumber => exact .notANumber
  | infinity s => exact .infinity _
  | zero s => exact .zero _
  | finite s hpos hm hlo hhi hnormal => exact .finite _ hpos hm hlo hhi hnormal

/-! ## The parts of the bits -/

theorem toNat_append {v w : Nat} (x : BitVec v) (y : BitVec w) :
    (x ++ y).toNat = x.toNat * 2 ^ w + y.toNat := by
  rw [BitVec.toNat_append, ← Nat.shiftLeft_add_eq_or_of_lt y.isLt, Nat.shiftLeft_eq]

section

variable (b : BitVec Format.binary64.numBits)

theorem toNat_unpackMantissa :
    (UnpackedFloat.unpackMantissa b).toNat = b.toNat % 2 ^ 52 := by
  simp [UnpackedFloat.unpackMantissa]

theorem toNat_unpackExponent :
    (UnpackedFloat.unpackExponent b).toNat = b.toNat / 2 ^ 52 % 2 ^ 11 := by
  simp [UnpackedFloat.unpackExponent, Nat.shiftRight_eq_div_pow]

theorem toNat_unpackSign : (UnpackedFloat.unpackSign b).toNat = b.toNat / 2 ^ 63 % 2 := by
  delta UnpackedFloat.unpackSign
  simp [Nat.shiftRight_eq_div_pow]

theorem isNegative_unpackSign :
    isNegative (.ofBitVec (UnpackedFloat.unpackSign b)) =
      decide (b.toNat / 2 ^ 63 % 2 = 1) := by
  have h := toNat_unpackSign b
  rw [UnpackedFloat.Sign.ofBitVec]
  by_cases hzero : UnpackedFloat.unpackSign b = 0#1
  · rw [if_pos hzero]
    rw [hzero, BitVec.toNat_zero] at h
    rw [← h]
    rfl
  · rw [if_neg hzero]
    have hne : (UnpackedFloat.unpackSign b).toNat ≠ 0 := by
      intro h'
      exact hzero (BitVec.eq_of_toNat_eq h')
    have hone : b.toNat / 2 ^ 63 % 2 = 1 := by omega
    rw [decide_eq_true hone]
    rfl

end

/-! ## The number of the parts -/

theorem finite_congr (s : UnpackedFloat.Sign) {m m' : Nat} {e e' : Int} {hpos : 0 < m}
    {hpos' : 0 < m'} (hm : m = m') (he : e = e') :
    UnpackedFloat.finite s m e hpos = .finite s m' e' hpos' := by
  subst hm he
  rfl

/-- The number that a sign, an exponent and a significand stand for as they are packed. -/
def ofParts (s : UnpackedFloat.Sign) (e : BitVec 11) (m : BitVec 52) : UnpackedFloat :=
  if e = -1#11 then if m = 0#52 then .infinity s else .notANumber
  else if e = 0#11 then
    if h : m = 0#52 then .zero s
    else .finite s m.toNat (-1074)
      (by simpa [BitVec.toNat_pos, BitVec.pos_iff_ne_zero] using h)
  else .finite s (2 ^ 52 + m.toNat) (e.toNat - 1075) (by omega)

theorem unpack_eq (b : BitVec Format.binary64.numBits) :
    UnpackedFloat.unpack Format.binary64 b =
      ofParts (.ofBitVec (UnpackedFloat.unpackSign b)) (UnpackedFloat.unpackExponent b)
        (UnpackedFloat.unpackMantissa b) := by
  rw [ofParts]
  by_cases hmax : UnpackedFloat.unpackExponent b = -1#11
  · rw [if_pos hmax]
    exact if_pos hmax
  · rw [if_neg hmax]
    refine (if_neg hmax).trans ?_
    by_cases hzero : UnpackedFloat.unpackExponent b = 0#11
    · rw [if_pos hzero, if_pos hzero]
      by_cases hm : UnpackedFloat.unpackMantissa b = 0#52
      · rw [dif_pos hm, dif_pos hm]
      · rw [dif_neg hm, dif_neg hm]
        refine finite_congr _ rfl ?_
        rw [hzero]
        rfl
    · rw [if_neg hzero, if_neg hzero]
      exact finite_congr _ (toNat_append _ _) rfl

/-! ## Reading a double -/

namespace Binary64

/-- What a number stands for whose parts lie apart. -/
def ofUnpacked : UnpackedFloat → Binary64
  | .notANumber => .nan
  | .infinity s => .infinite (isNegative s)
  | .zero s => .finite (isNegative s) ⟨0, minExponent⟩
  | .finite s m e _ => .finite (isNegative s) ⟨m, e⟩

/-- The parts that are read off the bits are those into which unpacking takes them. -/
theorem ofBits_toNat (b : BitVec Format.binary64.numBits) :
    ofBits b.toNat =
      if UnpackedFloat.unpackExponent b = -1#_ then
        if UnpackedFloat.unpackMantissa b = 0#_ then
          .infinite (isNegative (.ofBitVec (UnpackedFloat.unpackSign b)))
        else .nan
      else if UnpackedFloat.unpackExponent b = 0#_ then
        .finite (isNegative (.ofBitVec (UnpackedFloat.unpackSign b)))
          ⟨(UnpackedFloat.unpackMantissa b).toNat, minExponent⟩
      else
        .finite (isNegative (.ofBitVec (UnpackedFloat.unpackSign b)))
          ⟨hiddenBit + (UnpackedFloat.unpackMantissa b).toNat,
            minExponent + ((UnpackedFloat.unpackExponent b).toNat - 1 : Nat)⟩ := by
  simp only [← BitVec.toNat_inj, toNat_unpackMantissa, toNat_unpackExponent,
    isNegative_unpackSign]
  rfl

theorem ofBits_toNat_eq_ofUnpacked (b : BitVec Format.binary64.numBits) :
    ofBits b.toNat = ofUnpacked (UnpackedFloat.unpack Format.binary64 b) := by
  rw [ofBits_toNat, unpack_eq, ofParts]
  by_cases hmax : UnpackedFloat.unpackExponent b = -1#_
  · rw [if_pos hmax, if_pos hmax]
    by_cases hz : UnpackedFloat.unpackMantissa b = 0#_
    · rw [if_pos hz, if_pos hz]
      rfl
    · rw [if_neg hz, if_neg hz]
      rfl
  · rw [if_neg hmax, if_neg hmax]
    by_cases hzero : UnpackedFloat.unpackExponent b = 0#_
    · rw [if_pos hzero, if_pos hzero]
      by_cases hz : UnpackedFloat.unpackMantissa b = 0#_
      · rw [dif_pos hz, hz]
        rfl
      · rw [dif_neg hz]
        rfl
    · have hpos : (UnpackedFloat.unpackExponent b).toNat ≠ 0 := by
        intro h
        exact hzero (BitVec.eq_of_toNat_eq h)
      have hexp : minExponent + ((UnpackedFloat.unpackExponent b).toNat - 1 : Nat) =
          (UnpackedFloat.unpackExponent b).toNat - 1075 := by
        rw [minExponent]
        omega
      rw [if_neg hzero, if_neg hzero, hexp]
      rfl

end Binary64

/-- The parts of a double. -/
def unpacked (x : Float) : UnpackedFloat := x.toModel.unpack

theorem Binary64.ofFloat_eq_ofUnpacked (x : Float) : ofFloat x = ofUnpacked (unpacked x) :=
  ofBits_toNat_eq_ofUnpacked _

/-! ## Comparing -/

section

variable {p q : UnpackedFloat}

/-- Numbers that compare equal are the same, or zeros of either sign. -/
theorem eq_or_zeros_of_beq (h : p.beq q = true) : p = q ∨ ∃ s t, p = .zero s ∧ q = .zero t := by
  replace h : p.compare q = some .eq := eq_of_beq h
  cases p with
  | notANumber => cases h
  | infinity s =>
    cases q with
    | notANumber => cases s <;> cases h
    | infinity t => cases s <;> cases t <;> first | exact .inl rfl | cases h
    | zero t => cases s <;> cases h
    | finite t m e hpos => cases s <;> cases h
  | zero s =>
    cases q with
    | notANumber => cases h
    | infinity t => cases t <;> cases h
    | zero t => exact .inr ⟨s, t, rfl, rfl⟩
    | finite t m e hpos => cases t <;> cases h
  | finite s m e hpos =>
    cases q with
    | notANumber => cases s <;> cases h
    | infinity t => cases s <;> cases t <;> cases h
    | zero t => cases s <;> cases h
    | finite t m' e' hpos' =>
      obtain rfl : s = t := by cases s <;> cases t <;> first | rfl | cases h
      have hparts : (compare e e').then (compare m m') = .eq := by
        cases s with
        | negative => exact Ordering.swap_eq_eq.1 (Option.some.inj h)
        | positive => exact Option.some.inj h
      obtain ⟨he, hm⟩ := Ordering.then_eq_eq.1 hparts
      obtain rfl := Std.compare_eq_iff_eq.1 he
      obtain rfl := Std.compare_eq_iff_eq.1 hm
      exact .inl rfl

/-- All numbers but NaN compare equal to themselves. -/
theorem beq_self_of_ne_notANumber (h : p ≠ .notANumber) : p.beq p = true := by
  cases p with
  | notANumber => exact absurd rfl h
  | infinity s => cases s <;> rfl
  | zero s => rfl
  | finite s m e hpos =>
    have hparts : (compare e e).then (compare m m) = .eq :=
      Ordering.then_eq_eq.2 ⟨Std.compare_self, Std.compare_self⟩
    refine beq_iff_eq.2 ?_
    cases s with
    | negative => exact congrArg some (Ordering.swap_eq_eq.2 hparts)
    | positive => exact congrArg some hparts

end

/-! ## Arithmetic on finite numbers -/

section

variable (s s' : UnpackedFloat.Sign) {m m' : Nat} {e e' : Int} (hpos : 0 < m) (hpos' : 0 < m')

/-- The exact product is rounded once. -/
theorem mul_finite :
    UnpackedFloat.mul Format.binary64 (.finite s m e hpos) (.finite s' m' e' hpos') =
      UnpackedFloat.roundWithAccuracy Format.binary64 (s * s') (m * m') (e + e') .exact := rfl

/-- The significands are brought to one exponent, and their sum is rounded once. -/
theorem add_finite :
    UnpackedFloat.add Format.binary64 (.finite s m e hpos) (.finite s' m' e' hpos') =
      UnpackedFloat.normalize Format.binary64
        (s.apply (m <<< (e - min e e').toNat : Nat) + s'.apply (m' <<< (e' - min e e').toNat : Nat))
        (min e e') .positive := rfl

theorem sub_finite :
    UnpackedFloat.sub Format.binary64 (.finite s m e hpos) (.finite s' m' e' hpos') =
      UnpackedFloat.normalize Format.binary64
        (s.apply (m <<< (e - min e e').toNat : Nat) - s'.apply (m' <<< (e' - min e e').toNat : Nat))
        (min e e') .positive := rfl

/-- The quotient is rounded once, with a trace of what is left of the division. -/
theorem div_finite :
    UnpackedFloat.div Format.binary64 (.finite s m e hpos) (.finite s' m' e' hpos') =
      UnpackedFloat.roundWithAccuracy Format.binary64 (s / s')
        (UnpackedFloat.divCore Format.binary64 m e m' e').1
        (UnpackedFloat.divCore Format.binary64 m e m' e').2.1
        (UnpackedFloat.divCore Format.binary64 m e m' e').2.2 := rfl

end

/-! ## Packing -/

/-- The sign comes back out of the packed parts. -/
theorem ofBitVec_unpackSign_packComponents (s : UnpackedFloat.Sign) (e : BitVec 11)
    (m : BitVec 52) :
    .ofBitVec (UnpackedFloat.unpackSign (UnpackedFloat.packComponents Format.binary64 s e m)) =
      s := by
  have htop : (s.toBitVec ++ e ++ m).toNat / 2 ^ 63 % 2 = s.toBitVec.toNat := by
    rw [toNat_append, toNat_append]
    omega
  have hsign : UnpackedFloat.unpackSign (UnpackedFloat.packComponents Format.binary64 s e m) =
      s.toBitVec := BitVec.eq_of_toNat_eq ((toNat_unpackSign _).trans htop)
  rw [hsign]
  cases s with
  | positive => rfl
  | negative => rfl

theorem unpack_packComponents (s : UnpackedFloat.Sign) (e : BitVec 11) (m : BitVec 52) :
    UnpackedFloat.unpack Format.binary64 (UnpackedFloat.packComponents Format.binary64 s e m) =
      ofParts s e m := by
  rw [unpack_eq, ofBitVec_unpackSign_packComponents, UnpackedFloat.unpackExponent_packComponents,
    UnpackedFloat.unpackMantissa_packComponents]

section

variable (s : UnpackedFloat.Sign) {m : Nat} {e : Int} (hpos : 0 < m)

theorem biasedExponent_eq (e : Int) :
    e + Format.binary64.exponentBias + Format.binary64.mantissaBitsWithoutImplicit = e + 1075 := by
  rw [show (Format.binary64.exponentBias : Int) = 1023 from rfl,
    show (Format.binary64.mantissaBitsWithoutImplicit : Int) = 52 from rfl]
  omega

/-- A full significand is packed without its leading bit. -/
theorem pack_normal (hm : m < 2 ^ 53) (hfull : 2 ^ 52 ≤ m) (hhi : e ≤ 971) :
    UnpackedFloat.pack Format.binary64 (.finite s m e hpos) =
      UnpackedFloat.packComponents Format.binary64 s (.ofNat _ (e + 1075).toNat)
        (.ofNat _ m) := by
  have hlog : m.log2 = 52 := (Nat.log2_eq_iff (Nat.ne_of_gt hpos)).2 ⟨hfull, hm⟩
  delta UnpackedFloat.pack
  dsimp only
  rw [biasedExponent_eq, if_neg (by omega), if_pos (by rw [hlog]; rfl)]

/-- With too great an exponent a number is packed as infinite. -/
theorem pack_overflow (hlo : 972 ≤ e) :
    UnpackedFloat.pack Format.binary64 (.finite s m e hpos) =
      UnpackedFloat.pack Format.binary64 (.infinity s) := by
  change _ = UnpackedFloat.packedInfinity Format.binary64 s
  delta UnpackedFloat.pack
  dsimp only
  rw [biasedExponent_eq, if_pos]
  omega

theorem pack_subnormal (hm : m < 2 ^ 52) :
    UnpackedFloat.pack Format.binary64 (.finite s m (-1074) hpos) =
      UnpackedFloat.packComponents Format.binary64 s 0#_ (.ofNat _ m) := by
  have hlog : m.log2 < 52 := (Nat.log2_lt (Nat.ne_of_gt hpos)).2 hm
  delta UnpackedFloat.pack
  dsimp only
  rw [if_neg (by decide), if_neg]
  rw [show Format.binary64.mantissaBits = 53 from rfl]
  omega

theorem unpack_pack_normal (hm : m < 2 ^ 53) (hfull : 2 ^ 52 ≤ m) (hlo : -1074 ≤ e)
    (hhi : e ≤ 971) :
    UnpackedFloat.unpack Format.binary64
      (UnpackedFloat.pack Format.binary64 (.finite s m e hpos)) = .finite s m e hpos := by
  have hexp : (BitVec.ofNat 11 (e + 1075).toNat).toNat = (e + 1075).toNat :=
    Nat.mod_eq_of_lt (by omega)
  have hmant : (BitVec.ofNat 52 m).toNat = m - 2 ^ 52 := by
    rw [BitVec.toNat_ofNat]
    omega
  have hmax : BitVec.ofNat 11 (e + 1075).toNat ≠ -1#11 := by
    intro h
    rw [h, BitVec.toNat_neg, BitVec.toNat_ofNat] at hexp
    omega
  have hzero : BitVec.ofNat 11 (e + 1075).toNat ≠ 0#11 := by
    intro h
    rw [h, BitVec.toNat_zero] at hexp
    omega
  rw [pack_normal s hpos hm hfull hhi, unpack_packComponents, ofParts, if_neg hmax, if_neg hzero]
  refine finite_congr s ?_ ?_
  · change 2 ^ 52 + (BitVec.ofNat 52 m).toNat = m
    omega
  · change ((BitVec.ofNat 11 (e + 1075).toNat).toNat : Int) - 1075 = e
    omega

theorem unpack_pack_subnormal (hm : m < 2 ^ 52) :
    UnpackedFloat.unpack Format.binary64
      (UnpackedFloat.pack Format.binary64 (.finite s m (-1074) hpos)) =
        .finite s m (-1074) hpos := by
  have hmant : (BitVec.ofNat 52 m).toNat = m := Nat.mod_eq_of_lt hm
  have hne : BitVec.ofNat 52 m ≠ 0#52 := by
    intro h
    rw [h, BitVec.toNat_zero] at hmant
    omega
  rw [pack_subnormal s hpos hm, unpack_packComponents, ofParts, if_neg (by decide), if_pos rfl,
    dif_neg hne]
  exact finite_congr s hmant rfl

end

/-- **Packing loses nothing** of a number that 64 bits can hold. -/
theorem unpack_pack {q : UnpackedFloat} (hq : Canonical q) :
    UnpackedFloat.unpack Format.binary64 (UnpackedFloat.pack Format.binary64 q) = q := by
  cases hq with
  | notANumber => rfl
  | infinity s => cases s <;> rfl
  | zero s => cases s <;> rfl
  | @finite s m e hpos hm hlo hhi hnormal =>
    by_cases hfull : 2 ^ 52 ≤ m
    · exact unpack_pack_normal s hpos hm hfull hlo hhi
    · obtain rfl : e = -1074 := hnormal.resolve_left hfull
      exact unpack_pack_subnormal s hpos (Nat.lt_of_not_le hfull)

theorem unpacked_ofModel_pack {q : UnpackedFloat} (hq : Canonical q) :
    unpacked (.ofModel (.pack q)) = q := unpack_pack hq

theorem unpacked_neg {x : Float} (hx : Canonical (unpacked x)) :
    unpacked x.neg = (unpacked x).neg := unpacked_ofModel_pack hx.neg

end HiddenEquation.Decimal
