import DecodePipeline.Json.Number
import DecodePipeline.Json.Writer
import DecodePipeline.Proofs.Decimal.Shortest

/-!
This module contains the parts of a decimal's text. Digits are put in front of the point, behind it or
before a power of ten, and zeros where digits are missing; none of this changes the value.
-/

namespace DecodePipeline

namespace Decimal

theorem valueOf_eq (digits : List Char) : valueOf digits = Nat.ofDigitChars 10 digits 0 := rfl

theorem valueOf_digitsOf (n : Nat) : valueOf (digitsOf n) = n := Nat.ofDigitChars_ten_toDigits

theorem valueOf_append_zeros (digits : List Char) (count : Nat)
    : valueOf (digits ++ zeros count) = valueOf digits * 10 ^ count := by
  rw [valueOf_eq, Nat.ofDigitChars_append]
  exact Nat.ofDigitChars_replicate_zero.trans (Nat.mul_comm ..)

theorem valueOf_zeros_append (digits : List Char) (count : Nat)
    : valueOf (zeros count ++ digits) = valueOf digits := by
  rw [valueOf_eq, Nat.ofDigitChars_append]
  congr 1
  exact Nat.ofDigitChars_replicate_zero

theorem isDigit_of_mem_digitsOf {n : Nat} {c : Char} (hc : c ∈ digitsOf n) : c.isDigit :=
  Nat.isDigit_of_mem_toDigits (by decide) (by decide) hc

theorem isDigit_of_mem_zeros {count : Nat} {c : Char} (hc : c ∈ zeros count) : c.isDigit := by
  rw [List.eq_of_mem_replicate hc]
  rfl

theorem digitsOf_ne_nil (n : Nat) : digitsOf n ≠ [] := Nat.toDigits_ne_nil

theorem head?_digitsOf {n : Nat} (hpos : 0 < n) : (digitsOf n).head? ≠ some '0' := by
  induction n using Nat.strongRecOn with
  | ind n ih =>
    unfold digitsOf
    rcases Nat.lt_or_ge n 10 with hlt | hge
    . rw [Nat.toDigits_of_lt_base hlt, List.head?_cons]
      simpa using Nat.ne_of_gt hpos
    . rw [Nat.toDigits_of_base_le (by decide) hge, List.head?_append_of_ne_nil _ Nat.toDigits_ne_nil]
      exact ih (n / 10) (Nat.div_lt_self hpos (by decide)) (Nat.div_pos hge (by decide))

end Decimal

namespace Json.Number.Written

def pointText : Option (List Char) → List Char
  | some digits => '.' :: digits
  | none => []

def powerText : Option Int → List Char
  | some power => 'e' :: (if power < 0 then '-' else '+') :: Decimal.digitsOf power.natAbs
  | none => []

def text (w : Written) : List Char := w.whole ++ pointText w.fraction ++ powerText w.exponent

structure Proper (w : Written) : Prop where
  whole : w.whole ≠ [] ∧ ∀ c ∈ w.whole, c.isDigit
  leading : ∀ c rest, w.whole ≠ '0' :: c :: rest
  fraction : ∀ digits, w.fraction = some digits → digits ≠ [] ∧ ∀ c ∈ digits, c.isDigit

def IsReal (w : Written) : Prop := w.fraction ≠ none ∨ w.exponent ≠ none

def decimal (w : Written) : Decimal where
  digits := Decimal.valueOf (w.whole ++ w.fraction.getD [])
  exponent := w.exponent.getD 0 - (w.fraction.getD []).length

end Json.Number.Written

namespace Decimal

open Json.Number (Written)

def positionalParts (d : Decimal) : Written :=
  let digits := digitsOf d.digits
  let whole := (digits.length : Int) + d.exponent
  if 0 ≤ d.exponent then ⟨digits ++ zeros d.exponent.toNat, some ['0'], none⟩
  else if 0 < whole then ⟨digits.take whole.toNat, some (digits.drop whole.toNat), none⟩
  else ⟨['0'], some (zeros (-whole).toNat ++ digits), none⟩

def exponentParts (d : Decimal) : Written :=
  let digits := digitsOf d.digits
  let fraction := digits.drop 1
  ⟨digits.take 1, if fraction.isEmpty then none else some fraction,
    some (digits.length + d.exponent - 1)⟩

theorem positionalText_eq (d : Decimal) : d.positionalText true = d.positionalParts.text := by
  unfold positionalText positionalParts Written.text
  dsimp only
  split
  . simp [Written.pointText, Written.powerText]
  . split <;> simp [Written.pointText, Written.powerText]

theorem exponentText_eq (d : Decimal) : d.exponentText true = d.exponentParts.text := by
  unfold exponentText exponentParts Written.text
  dsimp only
  split <;> split <;> simp [Written.pointText, Written.powerText, *]

theorem value_positionalParts (d : Decimal) : d.positionalParts.decimal.value = d.value := by
  unfold positionalParts Written.decimal
  dsimp only
  split
  . next hwhole =>
    have hzero : valueOf (digitsOf d.digits ++ zeros d.exponent.toNat ++ ['0'])
        = d.digits * 10 ^ d.exponent.toNat * 10 := by
      change valueOf (digitsOf d.digits ++ zeros d.exponent.toNat ++ zeros 1) = _
      rw [valueOf_append_zeros, valueOf_append_zeros, valueOf_digitsOf, Nat.pow_one]
    have hpower : (d.exponent.toNat : ℤ) = d.exponent := Int.toNat_of_nonneg hwhole
    unfold value
    dsimp only [Option.getD]
    rw [hzero]
    push_cast
    rw [← zpow_natCast, hpower]
    norm_num
    ring
  . next hneg =>
    split
    . next hpos =>
      have hplaces : (0 - ((digitsOf d.digits).length
          - ((digitsOf d.digits).length + d.exponent).toNat : Nat) : Int) = d.exponent := by omega
      dsimp only [Option.getD]
      rw [List.take_append_drop, valueOf_digitsOf, List.length_drop, hplaces]
    . next hsmall =>
      have hzero : valueOf (['0'] ++ (zeros (-((digitsOf d.digits).length + d.exponent)).toNat
          ++ digitsOf d.digits)) = d.digits := by
        change valueOf (zeros 1 ++ _) = _
        rw [valueOf_zeros_append, valueOf_zeros_append, valueOf_digitsOf]
      have hplaces : (0 - ((-((digitsOf d.digits).length + d.exponent)).toNat
          + (digitsOf d.digits).length : Nat) : Int) = d.exponent := by omega
      dsimp only [Option.getD]
      rw [hzero, List.length_append, zeros, List.length_replicate, hplaces]

theorem decimal_exponentParts (d : Decimal) : d.exponentParts.decimal = d := by
  have hpos := List.length_pos_iff.mpr (digitsOf_ne_nil d.digits)
  have hfraction : (if ((digitsOf d.digits).drop 1).isEmpty then none
      else some ((digitsOf d.digits).drop 1)).getD [] = (digitsOf d.digits).drop 1 := by
    split
    . next hempty => exact (List.isEmpty_iff.mp hempty).symm
    . rfl
  have hplaces : ((digitsOf d.digits).length + d.exponent - 1 - ((digitsOf d.digits).length - 1 : Nat))
      = d.exponent := by omega
  unfold exponentParts Written.decimal
  dsimp only
  rw [hfraction, List.take_append_drop, valueOf_digitsOf, List.length_drop, Option.getD_some, hplaces]

def parts (d : Decimal) : Written :=
  let leading := ((digitsOf d.digits).length : Int) + d.exponent - 1
  if d.digits == 0 || (-5 ≤ leading && leading < 16) then d.positionalParts else d.exponentParts

theorem text_numberLayout (d : Decimal) : d.text Json.numberLayout = d.parts.text := by
  unfold Decimal.text parts
  dsimp only [Json.numberLayout]
  split
  . exact positionalText_eq d
  . exact exponentText_eq d

theorem value_parts (d : Decimal) : d.parts.decimal.value = d.value := by
  unfold parts
  dsimp only
  split
  . exact value_positionalParts d
  . rw [decimal_exponentParts]

theorem proper_positionalParts {d : Decimal} (hzero : d.digits = 0 → d.exponent = 0)
    : d.positionalParts.Proper := by
  have hnil := digitsOf_ne_nil d.digits
  have hleading {whole : List Char} (hpos : 0 < d.digits) (hhead : whole.head? = (digitsOf d.digits).head?)
      (c : Char) (rest : List Char)
      : whole ≠ '0' :: c :: rest := by
    rintro rfl
    exact head?_digitsOf hpos hhead.symm
  unfold positionalParts
  dsimp only
  split
  . refine ⟨⟨by simp [hnil], ?_⟩, ?_, ?_⟩
    . intro c hc
      exact (List.mem_append.mp hc).elim isDigit_of_mem_digitsOf isDigit_of_mem_zeros
    . rcases Nat.eq_zero_or_pos d.digits with hdigits | hpos
      . rw [hdigits, hzero hdigits]
        rintro c rest ⟨⟩
      . exact hleading hpos (List.head?_append_of_ne_nil _ hnil)
    . rintro _ ⟨⟩
      simp
  . next hneg =>
    have hpos : 0 < d.digits := Nat.pos_of_ne_zero fun hdigits => hneg (by rw [hzero hdigits])
    split
    . next hpoint =>
      refine ⟨⟨?_, ?_⟩, ?_, ?_⟩
      . simp [hnil]
        omega
      . intro c hc
        exact isDigit_of_mem_digitsOf (List.mem_of_mem_take hc)
      . apply hleading hpos
        rw [List.head?_take, if_neg (by omega)]
      . rintro _ ⟨⟩
        refine ⟨?_, fun c hc => isDigit_of_mem_digitsOf (List.mem_of_mem_drop hc)⟩
        simp
        omega
    . refine ⟨by simp, by simp, ?_⟩
      rintro _ ⟨⟩
      refine ⟨by simp [hnil], ?_⟩
      intro c hc
      exact (List.mem_append.mp hc).elim isDigit_of_mem_zeros isDigit_of_mem_digitsOf

theorem proper_exponentParts (d : Decimal) : d.exponentParts.Proper := by
  have hnil := digitsOf_ne_nil d.digits
  unfold exponentParts
  refine ⟨⟨by simp [hnil], ?_⟩, ?_, ?_⟩
  . intro c hc
    exact isDigit_of_mem_digitsOf (List.mem_of_mem_take hc)
  . intro c rest hwhole
    have := congrArg List.length hwhole
    simp only [List.length_take, List.length_cons] at this
    omega
  . dsimp only
    split
    . rintro _ ⟨⟩
    . next hfraction =>
      rintro _ ⟨⟩
      exact ⟨fun hempty => hfraction (List.isEmpty_iff.mpr hempty),
        fun c hc => isDigit_of_mem_digitsOf (List.mem_of_mem_drop hc)⟩

theorem proper_parts {d : Decimal} (hzero : d.digits = 0 → d.exponent = 0) : d.parts.Proper := by
  unfold parts
  dsimp only
  split
  . exact proper_positionalParts hzero
  . exact proper_exponentParts d

theorem isReal_parts (d : Decimal) : d.parts.IsReal := by
  unfold parts positionalParts exponentParts Written.IsReal
  dsimp only
  split
  . split
    . simp
    . split <;> simp
  . simp

end Decimal
end DecodePipeline
