import DecodePipeline.Json.Typed
import Mathlib.Data.List.TakeDrop
import Mathlib.Data.List.TakeWhile

/-!
This module contains what the simple readers take from the front of a text.
-/

namespace DecodePipeline.Json.Reader

variable {α β : Type}

theorem run_bind_of_ok {reader : Reader α} {next : α → Reader β} {text rest : List Char} {value : α}
    (hreader : reader.run text = .ok (value, rest))
    : (reader >>= next).run text = (next value).run rest := by
  rw [StateT.run_bind, hreader]
  rfl

theorem run_pure (value : α) (text : List Char)
    : (pure value : Reader α).run text = .ok (value, text) := rfl

theorem run_get (text : List Char) : (get : Reader (List Char)).run text = .ok (text, text) := rfl

theorem run_peek (text : List Char) : peek.run text = .ok (text.head?, text) := rfl

theorem run_advance (c : Char) (rest : List Char) : advance.run (c :: rest) = .ok ((), rest) := rfl

section Start

variable {c : Char} (hc : isSpace c = false) (rest : List Char)

include hc

theorem run_skipSpace : skipSpace.run (c :: rest) = .ok ((), c :: rest) := by
  change Except.ok ((), (c :: rest).dropWhile isSpace) = _
  rw [List.dropWhile_cons_of_neg (by simp [hc])]

theorem run_valueStart : valueStart.run (c :: rest) = .ok (c, c :: rest) := by
  unfold valueStart
  rw [run_bind_of_ok (run_skipSpace hc rest), run_bind_of_ok (run_peek _)]
  rfl

theorem run_symbol : (symbol c).run (c :: rest) = .ok ((), rest) := by
  unfold symbol
  rw [run_bind_of_ok (run_skipSpace hc rest), run_bind_of_ok (run_peek _), List.head?_cons,
    if_pos (beq_self_eq_true _)]
  rfl

end Start

theorem run_word (w : String) (rest : List Char) : (word w).run (w.toList ++ rest) = .ok ((), rest) := by
  unfold word
  induction w.toList with
  | nil => rfl
  | cons c letters ih =>
    unfold word.go
    rw [run_bind_of_ok (run_peek _), List.cons_append, List.head?_cons, if_pos (beq_self_eq_true _),
      run_bind_of_ok (run_advance c _), ih]

theorem ne_of_isDigit {c d : Char} (hc : c.isDigit) (hd : d.isDigit = false) : c ≠ d := by
  rintro rfl
  rw [hd] at hc
  cases hc

theorem isSpace_of_isDigit {c : Char} (hc : c.isDigit) : isSpace c = false := by
  unfold isSpace
  rw [beq_false_of_ne (ne_of_isDigit hc rfl), beq_false_of_ne (ne_of_isDigit hc rfl),
    beq_false_of_ne (ne_of_isDigit hc rfl), beq_false_of_ne (ne_of_isDigit hc rfl)]
  rfl

def NoDigit (text : List Char) : Prop := ∀ c, text.head? = some c → c.isDigit = false

theorem span_digits {found rest : List Char} (hfound : ∀ c ∈ found, c.isDigit) (hrest : NoDigit rest)
    : (found ++ rest).span Char.isDigit = (found, rest) := by
  rw [List.span_eq_takeWhile_dropWhile, List.takeWhile_append_of_pos hfound,
    List.dropWhile_append_of_pos hfound]
  cases rest with
  | nil => simp
  | cons c rest =>
    have hc : c.isDigit = false := hrest c rfl
    rw [List.takeWhile_cons_of_neg (by simp [hc]), List.dropWhile_cons_of_neg (by simp [hc]),
      List.append_nil]

theorem run_digits {found rest : List Char} (hfound : ∀ c ∈ found, c.isDigit) (hrest : NoDigit rest)
    : digits.run (found ++ rest) = .ok (found, rest) := congrArg Except.ok (span_digits hfound hrest)

theorem run_optional {choices : List Char} {c : Char} (hc : choices.contains c) (rest : List Char)
    : (optional choices).run (c :: rest) = .ok (some c, rest) := by
  unfold optional
  rw [run_bind_of_ok (run_peek _), List.head?_cons]
  dsimp only
  rw [if_pos hc]
  rfl

theorem run_optional_of_none {choices text : List Char}
    (hnone : ∀ c, text.head? = some c → choices.contains c = false)
    : (optional choices).run text = .ok (none, text) := by
  unfold optional
  rw [run_bind_of_ok (run_peek _)]
  cases text with
  | nil => rfl
  | cons c rest =>
    rw [List.head?_cons]
    dsimp only
    rw [hnone c rfl, if_neg Bool.false_ne_true]
    rfl

end DecodePipeline.Json.Reader
