import DecodePipeline.Decimal.Reading
import DecodePipeline.Proofs.Json.Numbers

/-!
This module contains the way of a floating point number through its text and back. The text is the
shortest that identifies the number, so the number that is read is the same if the reading is exact.
-/

namespace DecodePipeline

open Float.Model Float.Model.UnpackedFloat

namespace Decimal

theorem readExponent?_digitsOf (negative : Bool) (n : Nat)
    : readExponent? ((if negative then '-' else '+') :: digitsOf n)
        = some (if negative then -(n : Int) else n) := by
  have hdigits : (digitsOf n).all Char.isDigit :=
    List.all_eq_true.mpr fun c hc => isDigit_of_mem_digitsOf hc
  have hnone : ((digitsOf n).isEmpty || !(digitsOf n).all Char.isDigit) = false := by
    simp [digitsOf_ne_nil, hdigits]
  have hread : readExponent? ((if negative then '-' else '+') :: digitsOf n)
      = if ((digitsOf n).isEmpty || !(digitsOf n).all Char.isDigit) then none
        else some (if negative then -(valueOf (digitsOf n) : Int) else valueOf (digitsOf n)) := by
    cases negative <;> rfl
  rw [hread, hnone, if_neg Bool.false_ne_true, valueOf_digitsOf]

theorem readExponent?_eq (power : Int)
    : readExponent? ((if power < 0 then '-' else '+') :: digitsOf power.natAbs) = some power := by
  have hread := readExponent?_digitsOf (decide (power < 0)) power.natAbs
  simp only [decide_eq_true_eq] at hread
  rw [hread]
  congr 1
  split <;> omega

open Json.Number (Written)

theorem read?_text {w : Written} (hproper : w.Proper) : read? w.text = some w.decimal := by
  have hnone : Json.Reader.NoNumber [] := ⟨nofun, nofun⟩
  have hwhole := Json.Reader.span_digits hproper.whole.2
    (Json.Reader.noDigit_pointText w.fraction w.exponent hnone)
  have hpower := Json.Reader.noDigit_powerText w.exponent hnone
  have hempty : w.whole.isEmpty = false := by simpa using hproper.whole.1
  rw [List.append_nil] at hwhole hpower
  unfold read? Written.text
  rw [List.append_assoc, hwhole]
  dsimp only
  rw [hempty, Bool.false_and, if_neg Bool.false_ne_true]
  rcases w with ⟨whole, fraction, power⟩
  cases fraction with
  | none =>
    cases power with
    | none => rfl
    | some power =>
      change (readExponent? _).map _ = _
      rw [readExponent?_eq]
      rfl
  | some digits =>
    have hdigits := Json.Reader.span_digits (hproper.fraction digits rfl).2 hpower
    simp only [Written.pointText, List.cons_append, hdigits]
    cases power with
    | none => rfl
    | some power =>
      change (readExponent? _).map _ = _
      rw [readExponent?_eq]
      rfl

theorem proper_shortest (tie : Tie) (m : Binary.Magnitude) : (shortest tie m).parts.Proper := by
  apply proper_parts
  intro hzero
  rcases Nat.eq_zero_or_pos m.significand with hsignificand | hpos
  . unfold shortest
    rw [hsignificand]
    rfl
  . have hnear := isNearest_shortest tie hpos
    exact absurd hzero (Nat.ne_of_gt (digits_pos_of_value (hnear.pos hpos)))

structure IsShort (d : Decimal) : Prop where
  digits : Floating.Representable d.digits
  fits : d.digits < 2 ^ 64
  power : d.exponent.natAbs ≤ 22

theorem isShort_of_lt {d : Decimal} (hdigits : d.digits < 2 ^ 53) (hpower : d.exponent.natAbs ≤ 22)
    : d.IsShort where
  digits := Floating.representable_of_lt hdigits
  fits := Nat.lt_trans hdigits (by decide)
  power := hpower

end Decimal

namespace Json

/--
A finite number whose text, without the sign, spells a short decimal. The digits are those in front
of the point and those behind it, also if the only one behind it is a zero.
-/
structure IsCovered (x : Float) : Prop where
  finite : x.isFinite
  short : ∃ d, Decimal.read? ((float x).toList.dropWhile (· == '-')) = some d ∧ d.IsShort

def signedText (sign : Sign) (m : Binary.Magnitude) : List Char :=
  (if sign == .negative then ['-'] else []) ++ (Decimal.shortest .toEven m).parts.text

theorem toList_float {x : Float} (hfinite : x.isFinite)
    : (∃ sign m, x.toModel.unpack = .zero sign ∧ m.significand = 0
        ∧ (float x).toList = signedText sign m)
      ∨ ∃ sign m e hm, x.toModel.unpack = .finite sign m e hm
        ∧ (float x).toList = signedText sign (Floating.magnitude m e) := by
  have hfinite' : x.toModel.unpack.isFinite = true := hfinite
  have htext := Binary.ofFloat_eq x
  unfold float
  rw [if_pos hfinite]
  unfold Binary.text Binary.render signedText
  cases hunpack : x.toModel.unpack with
  | notANumber =>
    rw [hunpack] at hfinite'
    cases hfinite'
  | infinity sign =>
    rw [hunpack] at hfinite'
    cases hfinite'
  | zero sign =>
    rw [hunpack] at htext
    rw [htext]
    refine .inl ⟨sign, ⟨0, -1074, false⟩, rfl, rfl, ?_⟩
    rw [← Decimal.text_numberLayout]
    exact String.toList_ofList
  | finite sign m e hm =>
    rw [hunpack] at htext
    rw [htext]
    refine .inr ⟨sign, m, e, hm, rfl, ?_⟩
    rw [← Decimal.text_numberLayout]
    exact String.toList_ofList

theorem dropWhile_signedText (sign : Sign) (m : Binary.Magnitude)
    : (signedText sign m).dropWhile (· == '-') = (Decimal.shortest .toEven m).parts.text := by
  have hproper := Decimal.proper_shortest .toEven m
  rcases Reader.head_whole hproper with ⟨c, tail, hwhole, hdigit⟩
  have hne : c ≠ '-' := Reader.ne_of_isDigit hdigit rfl
  unfold signedText Number.Written.text
  rw [hwhole]
  cases sign <;> simp [hne]

theorem short_of_covered {x : Float} (hcovered : IsCovered x) {sign : Sign} {m : Binary.Magnitude}
    (htext : (float x).toList = signedText sign m)
    : (Decimal.shortest .toEven m).parts.decimal.IsShort := by
  rcases hcovered.short with ⟨d, hread, hshort⟩
  rw [htext, dropWhile_signedText, Decimal.read?_text (Decimal.proper_shortest .toEven m)] at hread
  cases hread
  exact hshort

theorem length_digitsOf_le {n : Nat} (hlt : n < 2 ^ 64) : (Decimal.digitsOf n).length ≤ 20 :=
  (Nat.length_toDigits_le_iff (by decide) (by decide)).mpr (Nat.lt_trans hlt (by decide))

theorem real?_parts {d : Decimal} (hshort : d.parts.decimal.IsShort)
    : d.parts.real? = Number.scale d.parts.decimal.digits d.parts.decimal.exponent := by
  apply Number.Written.real?_eq hshort.fits
  unfold Decimal.parts at hshort ⊢
  dsimp only at hshort ⊢
  split at hshort
  . next hpositional =>
    rw [if_pos hpositional]
    unfold Decimal.positionalParts
    dsimp only
    split
    . exact Nat.zero_le _
    . split <;> exact Nat.zero_le _
  . next hexponent =>
    rw [Decimal.decimal_exponentParts] at hshort
    have hlength := length_digitsOf_le hshort.fits
    have hpower := hshort.power
    rw [if_neg hexponent]
    unfold Decimal.exponentParts
    rw [Option.getD_some]
    omega

theorem real?_shortest {m : Nat} {e : Int} (hm : Floating.Canonical m e) (he : e ≤ 971)
    (hshort : (Decimal.shortest .toEven (Floating.magnitude m e)).parts.decimal.IsShort)
    : ∃ y, (Decimal.shortest .toEven (Floating.magnitude m e)).parts.real? = some y
        ∧ y.toModel.unpack = .finite .positive m e hm.pos := by
  have hpos : 0 < (Floating.magnitude m e).significand := hm.pos
  have hnear := Decimal.isNearest_shortest .toEven hpos
  have hvalue := Decimal.value_parts (Decimal.shortest .toEven (Floating.magnitude m e))
  rw [real?_parts hshort]
  rw [← hvalue] at hnear
  have hdigits := Decimal.digits_pos_of_value (hnear.pos hpos)
  exact Floating.scale_spec hshort.digits hdigits hshort.fits hshort.power hm he hnear

theorem real?_shortest_zero {m : Binary.Magnitude} (hzero : m.significand = 0)
    : (Decimal.shortest .toEven m).parts.real? = some 0.0 := by
  have hshortest : Decimal.shortest .toEven m = ⟨0, 0⟩ := by
    unfold Decimal.shortest
    rw [hzero]
    rfl
  rw [hshortest]
  rfl

theorem unpack_zero : (0.0 : Float).toModel.unpack = .zero .positive := by rfl

theorem signed_eq {x y : Float} {sign : Sign}
    (hx : x.toModel.unpack = if sign == .negative then y.toModel.unpack.neg else y.toModel.unpack)
    : (if sign == .negative then -y else y) = x := by
  apply Floating.ext
  rw [hx]
  split
  . exact Floating.toModel_unpack_neg y
  . rfl

theorem run_anyNumber {text rest : List Char} {value : Number} {c : Char} {tail : List Char}
    (htext : text = c :: tail) (hstart : c = '-' ∨ c.isDigit)
    (hnumber : Reader.number.run text = .ok (value, rest))
    : Reader.anyNumber.run text = .ok (value, rest) := by
  have hspace : Reader.isSpace c = false := by
    rcases hstart with rfl | hdigit
    . rfl
    . exact Reader.isSpace_of_isDigit hdigit
  have hbranch : (c == '-' || c.isDigit) = true := by
    rcases hstart with rfl | hdigit
    . rfl
    . rw [hdigit, Bool.or_true]
  unfold Reader.anyNumber
  subst htext
  rw [Reader.run_bind_of_ok (Reader.run_valueStart hspace tail), if_pos hbranch, hnumber]

theorem exists_start (sign : Sign) (m : Binary.Magnitude) (rest : List Char)
    : ∃ c tail, signedText sign m ++ rest = c :: tail ∧ (c = '-' ∨ c.isDigit) := by
  rcases Reader.head_whole (Decimal.proper_shortest .toEven m) with ⟨c, tail, hwhole, hdigit⟩
  unfold signedText Number.Written.text
  rw [hwhole]
  cases sign with
  | negative => exact ⟨'-', _, rfl, .inl rfl⟩
  | positive => exact ⟨c, _, rfl, .inr hdigit⟩

theorem run_signedText {x y : Float} {sign : Sign} {m : Binary.Magnitude}
    (hreal : (Decimal.shortest .toEven m).parts.real? = some y)
    (hx : x.toModel.unpack = if sign == .negative then y.toModel.unpack.neg else y.toModel.unpack)
    {rest : List Char} (hrest : Reader.NoNumber rest)
    : Reader.float.run (signedText sign m ++ rest) = .ok (x, rest) := by
  have hproper := Decimal.proper_shortest .toEven m
  have hreal' := Decimal.isReal_parts (Decimal.shortest .toEven m)
  have hvalue := Number.Written.value?_of_isReal hreal' (sign == .negative)
  rw [hreal] at hvalue
  have hnumber := Reader.run_number hproper _ hvalue hrest
  rw [← List.append_assoc] at hnumber
  rcases exists_start sign m rest with ⟨c, tail, htext, hstart⟩
  unfold Reader.float
  rw [Reader.run_bind_of_ok (run_anyNumber htext hstart hnumber), ← signed_eq hx]
  rfl

theorem run_float {x : Float} (hcovered : IsCovered x) {rest : List Char}
    (hrest : Reader.NoNumber rest)
    : Reader.float.run ((float x).toList ++ rest) = .ok (x, rest) := by
  have hstored := Floating.stored_unpack x
  rcases toList_float hcovered.finite with
    ⟨sign, m, hunpack, hzero, htext⟩ | ⟨sign, m, e, hm, hunpack, htext⟩
  . rw [htext]
    apply run_signedText (real?_shortest_zero hzero) _ hrest
    rw [hunpack, unpack_zero]
    cases sign <;> rfl
  . have hshort := short_of_covered hcovered htext
    rw [hunpack] at hstored
    rcases real?_shortest hstored.1 hstored.2 hshort with ⟨y, hreal, hy⟩
    rw [htext]
    apply run_signedText hreal _ hrest
    rw [hunpack, hy]
    cases sign <;> rfl

-- `7205759403792796.0` has too many digits, and what is read is the next number.
example : (read Reader.float (float 7205759403792796)).toOption = some 7205759403792797 := by
  decide +kernel

end Json
end DecodePipeline
