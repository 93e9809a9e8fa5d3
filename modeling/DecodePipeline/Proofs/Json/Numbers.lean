import DecodePipeline.Proofs.Decimal.Texts
import DecodePipeline.Proofs.Float.Scaling
import DecodePipeline.Proofs.Json.Readers

/-!
This module contains the reading of numbers as they are written. A number whose text has few enough
digits is read as it was.
-/

namespace DecodePipeline.Json

namespace Reader

theorem run_someDigits {found rest : List Char} (hnil : found ≠ [])
    (hfound : ∀ c ∈ found, c.isDigit) (hrest : NoDigit rest)
    : someDigits.run (found ++ rest) = .ok (found, rest) := by
  unfold someDigits
  rw [run_bind_of_ok (run_digits hfound hrest), if_neg (by simpa using hnil)]
  rfl

theorem run_wholeDigits {found rest : List Char} (hnil : found ≠ [])
    (hfound : ∀ c ∈ found, c.isDigit) (hleading : ∀ c tail, found ≠ '0' :: c :: tail)
    (hrest : NoDigit rest)
    : wholeDigits.run (found ++ rest) = .ok (found, rest) := by
  unfold wholeDigits
  rw [run_bind_of_ok (run_someDigits hnil hfound hrest)]
  split
  . next c tail => exact absurd rfl (hleading c tail)
  . rfl

end Reader

namespace Number

theorem le_ofDigitChars (digits : List Char) (n : Nat) : n ≤ Nat.ofDigitChars 10 digits n := by
  rw [Nat.ofDigitChars_eq_ofDigitChars_zero]
  exact Nat.le_trans (Nat.le_mul_of_pos_left n (Nat.pow_pos (by decide))) (Nat.le_add_right ..)

theorem absorb_all {digits : List Char} {n : Nat} (hlt : Nat.ofDigitChars 10 digits n < UInt64.size)
    : absorb n digits = (Nat.ofDigitChars 10 digits n, []) := by
  induction digits generalizing n with
  | nil => rfl
  | cons c digits ih =>
    rw [Nat.ofDigitChars_cons] at hlt ⊢
    unfold absorb
    dsimp only
    rw [if_pos (Nat.lt_of_le_of_lt (le_ofDigitChars ..) hlt), ih hlt]

namespace Written

variable {w : Written}

theorem value?_of_isReal (hreal : w.IsReal) (minus : Bool)
    : w.value? minus = w.real?.map fun x => .real (if minus then -x else x) := by
  unfold value?
  split
  . next hfraction hexponent _ =>
    exact hreal.elim (absurd hfraction) (absurd hexponent)
  . rfl

theorem real?_eq (hdigits : w.decimal.digits < 2 ^ 64)
    (hexponent : (w.exponent.getD 0).natAbs ≤ 2147483647)
    : w.real? = scale w.decimal.digits w.decimal.exponent := by
  have hvalue : w.decimal.digits
      = Nat.ofDigitChars 10 (w.fraction.getD []) (Nat.ofDigitChars 10 w.whole 0) :=
    Nat.ofDigitChars_append 0
  rw [hvalue] at hdigits ⊢
  unfold real? exponentBound
  rw [absorb_all (Nat.lt_of_le_of_lt (le_ofDigitChars ..) hdigits)]
  dsimp only
  rw [absorb_all hdigits]
  dsimp only
  rw [if_neg (by omega), if_neg (by omega)]
  congr 1
  unfold decimal
  dsimp only [List.length_nil]
  omega

end Written
end Number

namespace Reader

open Number (Written)

structure NoNumber (text : List Char) : Prop where
  digit : NoDigit text
  sign : ∀ c, text.head? = some c → ['.'].contains c = false ∧ ['e', 'E'].contains c = false

theorem run_exponent (power : Option Int) {rest : List Char} (hrest : NoNumber rest)
    : exponent.run (Written.powerText power ++ rest) = .ok (power, rest) := by
  unfold exponent
  cases power with
  | none =>
    rw [Written.powerText, List.nil_append,
      run_bind_of_ok (run_optional_of_none fun c hc => (hrest.sign c hc).2)]
    rfl
  | some power =>
    have hdigits := run_someDigits (Decimal.digitsOf_ne_nil power.natAbs)
      (fun c hc => Decimal.isDigit_of_mem_digitsOf hc) hrest.digit
    rw [Written.powerText, List.cons_append, run_bind_of_ok (run_optional (by rfl) _)]
    dsimp only
    rw [List.cons_append, run_bind_of_ok (run_optional (by split <;> rfl) _),
      run_bind_of_ok hdigits, Decimal.valueOf_digitsOf]
    split
    . next hneg =>
      have hpower : -(power.natAbs : Int) = power := by omega
      rw [if_pos (by rfl), hpower]
      rfl
    . next hpos =>
      have hpower : (power.natAbs : Int) = power := by omega
      rw [if_neg (by decide), hpower]
      rfl

theorem noDigit_powerText (power : Option Int) {rest : List Char} (hrest : NoNumber rest)
    : NoDigit (Written.powerText power ++ rest) := by
  cases power with
  | none => exact hrest.digit
  | some power =>
    rintro c ⟨⟩
    rfl

theorem noDigit_pointText (fraction : Option (List Char)) (power : Option Int) {rest : List Char}
    (hrest : NoNumber rest)
    : NoDigit (Written.pointText fraction ++ (Written.powerText power ++ rest)) := by
  cases fraction with
  | none => exact noDigit_powerText power hrest
  | some digits =>
    rintro c ⟨⟩
    rfl

theorem noPoint_powerText (power : Option Int) {rest : List Char} (hrest : NoNumber rest) (c : Char)
    (hc : (Written.powerText power ++ rest).head? = some c)
    : ['.'].contains c = false := by
  cases power with
  | none => exact (hrest.sign c hc).1
  | some power =>
    cases hc
    rfl

theorem head_whole {w : Written} (hproper : w.Proper)
    : ∃ c tail, w.whole = c :: tail ∧ c.isDigit := by
  rcases List.exists_cons_of_ne_nil hproper.whole.1 with ⟨c, tail, hwhole⟩
  exact ⟨c, tail, hwhole, hproper.whole.2 c (by rw [hwhole]; exact List.mem_cons_self)⟩

theorem run_minus (minus : Bool) {w : Written} (hproper : w.Proper) (rest : List Char)
    : (optional ['-']).run ((if minus then ['-'] else []) ++ (w.whole ++ rest))
        = .ok (if minus then some '-' else none, w.whole ++ rest) := by
  cases minus with
  | true => exact run_optional (by rfl) _
  | false =>
    rcases head_whole hproper with ⟨c, tail, hwhole, hdigit⟩
    rw [hwhole]
    have hne : c ≠ '-' := ne_of_isDigit hdigit rfl
    apply run_optional_of_none
    rintro _ ⟨⟩
    simp [hne]

theorem run_number {w : Written} (hproper : w.Proper) (minus : Bool) {value : Number}
    (hvalue : w.value? minus = some value) {rest : List Char} (hrest : NoNumber rest)
    : number.run ((if minus then ['-'] else []) ++ (w.text ++ rest)) = .ok (value, rest) := by
  have hafter := noDigit_pointText w.fraction w.exponent hrest
  unfold number Written.text
  rw [List.append_assoc, List.append_assoc, run_bind_of_ok (run_minus minus hproper _),
    run_bind_of_ok (run_wholeDigits hproper.whole.1 hproper.whole.2 hproper.leading hafter)]
  have hsign : (if minus then some '-' else none).isSome = minus := by cases minus <;> rfl
  rcases w with ⟨whole, fraction, power⟩
  cases fraction with
  | none =>
    rw [Written.pointText, List.nil_append,
      run_bind_of_ok (run_optional_of_none (noPoint_powerText power hrest))]
    dsimp only
    rw [run_bind_of_ok (run_pure none _), run_bind_of_ok (run_exponent power hrest), hsign, hvalue]
    rfl
  | some digits =>
    have hfraction := hproper.fraction digits rfl
    have hdigits : (some <$> someDigits).run (digits ++ (Written.powerText power ++ rest))
        = .ok (some digits, Written.powerText power ++ rest) := by
      rw [StateT.run_map, run_someDigits hfraction.1 hfraction.2 (noDigit_powerText power hrest)]
      rfl
    rw [Written.pointText, List.cons_append, run_bind_of_ok (run_optional (by rfl) _)]
    dsimp only
    rw [run_bind_of_ok hdigits, run_bind_of_ok (run_exponent power hrest), hsign, hvalue]
    rfl

end Reader
end DecodePipeline.Json
