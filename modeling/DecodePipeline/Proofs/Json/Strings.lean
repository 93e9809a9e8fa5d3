import DecodePipeline.Json.Writer
import DecodePipeline.Proofs.Json.Readers

/-!
This module contains the reading of strings as they are written: every escape is undone.
-/

namespace DecodePipeline.Json

theorem unit_append {found : List Char} (hfound : found.length = 4) (rest : List Char)
    : unit (found ++ rest) = unit found := by
  have htake : (found ++ rest).take 4 = found.take 4 :=
    List.take_append_of_le_length (Nat.le_of_eq hfound.symm)
  unfold unit
  rw [htake]

theorem stringBody_plain {c : Char} (hquote : c ≠ '"') (hslash : c ≠ '\\') (hcontrol : ¬ c < ' ')
    (text : List Char)
    : stringBody none (c :: text) = consRead c (stringBody none text) := by
  rw [stringBody.eq_def]
  simp [hquote, hslash, hcontrol]

theorem stringBody_letter {letter c : Char} (hlookup : escapes.lookup letter = some c)
    (text : List Char)
    : stringBody none ('\\' :: letter :: text) = consRead c (stringBody none text) := by
  have hletter : letter ≠ 'u' := by
    rintro rfl
    have hnone : escapes.lookup 'u' = none := by decide
    rw [hnone] at hlookup
    cases hlookup
  rw [stringBody.eq_def]
  simp [hlookup]

theorem stringBody_unit {found : List Char} {n : Nat} (hfound : found.length = 4)
    (hunit : unit found = .ok n) (hsmall : n < 0xD800) (text : List Char)
    : stringBody none ('\\' :: 'u' :: (found ++ text))
        = consRead (Char.ofNat n) (stringBody none text) := by
  have hunit : unit (found ++ text) = .ok n := (unit_append hfound text).trans hunit
  have hdrop : (found ++ text).drop 4 = text := List.drop_left' hfound
  have htrailing : isTrailingUnit n = false := by
    unfold isTrailingUnit
    rw [decide_eq_false (by omega), Bool.false_and]
  have hleading : isLeadingUnit n = false := by
    unfold isLeadingUnit
    rw [decide_eq_false (by omega), Bool.false_and]
  rw [stringBody.eq_def]
  simp only [hunit, hdrop, bind, Except.bind]
  rw [htrailing, hleading, if_neg Bool.false_ne_true, if_neg Bool.false_ne_true]

theorem lookup_of_mem : ∀ entry ∈ escapes, escapes.lookup entry.1 = some entry.2 := by decide

def controlDigits (n : Nat) : List Char :=
  Decimal.zeros (4 - (Text.hexDigits n).length) ++ Text.hexDigits n

theorem controlDigits_spec : ∀ n : Fin 32, (controlDigits n).length = 4
    ∧ (unit (controlDigits n)).toOption = some n.val := by
  decide

theorem unit_controlDigits {n : Nat} (hn : n < 32)
    : (controlDigits n).length = 4 ∧ unit (controlDigits n) = .ok n := by
  have hspec := controlDigits_spec ⟨n, hn⟩
  refine ⟨hspec.1, ?_⟩
  have hunit := hspec.2
  dsimp only at hunit
  cases hresult : unit (controlDigits n) with
  | error fault =>
    rw [hresult] at hunit
    cases hunit
  | ok value =>
    rw [hresult] at hunit
    cases hunit
    rfl

theorem stringBody_escape (c : Char) (text : List Char)
    : stringBody none (escape c ++ text) = consRead c (stringBody none text) := by
  unfold escape
  split
  . next hslash =>
    rw [beq_iff_eq] at hslash
    subst hslash
    exact stringBody_plain (by decide) (by decide) (by decide) text
  . next hslash =>
    rw [beq_iff_eq] at hslash
    split
    . next letter origin hfound =>
      have horigin : origin = c := by simpa using List.find?_some hfound
      have hlookup := lookup_of_mem _ (List.mem_of_find?_eq_some hfound)
      exact stringBody_letter (horigin ▸ hlookup) text
    . next hnone =>
      split
      . next hcontrol =>
        have hn : c.toNat < 32 := hcontrol
        have hdigits := unit_controlDigits hn
        have hunit := stringBody_unit hdigits.1 hdigits.2 (by omega) text
        rw [Char.ofNat_toNat] at hunit
        exact hunit
      . next hplain =>
        have hother (entry : Char × Char) (hentry : entry ∈ escapes) : c ≠ entry.2 := by
          have := List.find?_eq_none.mp hnone entry hentry
          rw [beq_iff_eq] at this
          exact Ne.symm this
        exact stringBody_plain (hother ('"', '"') (by decide)) (hother ('\\', '\\') (by decide))
          hplain text

theorem stringBody_escaped (chars rest : List Char)
    : stringBody none (chars.flatMap escape ++ '"' :: rest) = .ok (chars, rest) := by
  induction chars with
  | nil =>
    rw [stringBody.eq_def]
    simp
  | cons c chars ih =>
    rw [List.flatMap_cons, List.append_assoc, stringBody_escape, ih]
    rfl

namespace Reader

theorem toList_string (written : String)
    : (Json.string written).toList = '"' :: (written.toList.flatMap escape ++ ['"']) :=
  String.toList_ofList

theorem run_text (written : String) (rest : List Char)
    : text.run ((Json.string written).toList ++ rest) = .ok (written, rest) := by
  unfold text
  rw [toList_string, List.cons_append, List.append_assoc, List.singleton_append,
    run_bind_of_ok (run_advance ..), run_bind_of_ok (run_get _), stringBody_escaped]
  change Except.ok (String.ofList written.toList, rest) = _
  rw [String.ofList_toList]

theorem run_string (written : String) (rest : List Char)
    : string.run ((Json.string written).toList ++ rest) = .ok (written, rest) := by
  have hread := run_text written rest
  unfold string
  rw [toList_string, List.cons_append] at hread ⊢
  rw [run_bind_of_ok (run_valueStart (by rfl) _), if_pos (by rfl), hread]

end Reader
end DecodePipeline.Json
