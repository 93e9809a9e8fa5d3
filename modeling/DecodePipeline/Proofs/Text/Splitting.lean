import DecodePipeline.Text.Blank
import Mathlib.Data.List.TakeWhile

/-!
This module contains what the cutting of a list that the user writes comes to: the pieces are those
between separators, and blanks at their ends do not matter, neither do those at the ends of the list.
-/

namespace DecodePipeline.Text

theorem pieces_eq_splitOn (separator : Char) (text : List Char)
    : pieces separator text = text.splitOn separator := by
  induction text with
  | nil => rfl
  | cons c rest ih =>
    rw [pieces, List.splitOn_cons_eq_if_modifyHead, ih]
    rcases List.exists_cons_of_ne_nil (List.splitOn_ne_nil separator rest) with ⟨piece, others, hrest⟩
    rw [hrest]
    rfl

section Trim

variable {blanks : List Char}

theorem trim_blanks_append (hblanks : ∀ c ∈ blanks, isBlank c = true) (text : List Char)
    : trim (blanks ++ text) = trim text := by
  unfold trim
  rw [List.dropWhile_append_of_pos hblanks]

theorem trim_append_blanks (hblanks : ∀ c ∈ blanks, isBlank c = true) (text : List Char)
    : trim (text ++ blanks) = trim text := by
  unfold trim
  rw [List.dropWhile_append]
  split
  . next hempty =>
    have hnone : blanks.dropWhile isBlank = [] := List.dropWhile_eq_nil_iff.mpr hblanks
    rw [hnone, List.isEmpty_iff.mp hempty]
  . have hreverse : ∀ c ∈ blanks.reverse, isBlank c = true := by simpa using hblanks
    rw [List.reverse_append, List.dropWhile_append_of_pos hreverse]

theorem exists_append_trim_append (text : List Char)
    : ∃ before after, text = before ++ (trim text ++ after)
        ∧ (∀ c ∈ before, isBlank c = true) ∧ ∀ c ∈ after, isBlank c = true := by
  let rest := text.dropWhile isBlank
  refine ⟨text.takeWhile isBlank, (rest.reverse.takeWhile isBlank).reverse, ?_, ?_, ?_⟩
  . have hrest : trim text ++ (rest.reverse.takeWhile isBlank).reverse = rest := by
      unfold trim
      rw [← List.reverse_append, List.takeWhile_append_dropWhile, List.reverse_reverse]
    rw [hrest, List.takeWhile_append_dropWhile]
  . exact fun c hc => List.mem_takeWhile_imp hc
  . intro c hc
    rw [List.mem_reverse] at hc
    exact List.mem_takeWhile_imp hc

theorem trim_eq_nil {text : List Char} : trim text = [] ↔ text.all isBlank = true := by
  rw [List.all_eq_true]
  refine ⟨?_, ?_⟩
  . intro htrim
    rcases exists_append_trim_append text with ⟨before, after, htext, hbefore, hafter⟩
    rw [htrim, List.nil_append] at htext
    intro c hc
    rw [htext, List.mem_append] at hc
    exact hc.elim (hbefore c) (hafter c)
  . intro hblank
    have hnone := trim_blanks_append hblank []
    rw [List.append_nil] at hnone
    exact hnone

end Trim

section Pieces

variable {separator : Char} {blanks : List Char}

theorem splitOn_append (hblanks : separator ∉ blanks) (text : List Char)
    : (blanks ++ text).splitOn separator
        = (text.splitOn separator).modifyHead (blanks ++ ·) := by
  induction blanks with
  | nil => exact (congrFun List.modifyHead_id (text.splitOn separator)).symm
  | cons c rest ih =>
    have hother : (c == separator) = false := by
      rw [beq_eq_false_iff_ne]
      exact (List.ne_of_not_mem_cons hblanks).symm
    rw [List.cons_append, List.splitOn_cons_eq_if_modifyHead, hother, if_neg (by simp),
      ih (List.not_mem_of_not_mem_cons hblanks), List.modifyHead_modifyHead]
    rfl

theorem exists_splitOn_append (hblanks : separator ∉ blanks) (text : List Char)
    : ∃ pieces last, text.splitOn separator = pieces ++ [last]
        ∧ (text ++ blanks).splitOn separator = pieces ++ [last ++ blanks] := by
  -- Only the last piece notices that something comes after the text.
  induction text with
  | nil =>
    refine ⟨[], [], rfl, ?_⟩
    have hone := splitOn_append hblanks []
    rw [List.append_nil] at hone
    rw [List.nil_append, hone]
    simp
  | cons c rest ih =>
    rcases ih with ⟨pieces, last, hrest, hmore⟩
    rw [List.cons_append, List.splitOn_cons_eq_if_modifyHead, List.splitOn_cons_eq_if_modifyHead,
      hrest, hmore]
    split
    . exact ⟨[] :: pieces, last, rfl, rfl⟩
    . cases pieces with
      | nil => exact ⟨[], c :: last, rfl, rfl⟩
      | cons piece pieces => exact ⟨(c :: piece) :: pieces, last, rfl, rfl⟩

theorem map_trim_splitOn_trim (hseparator : isBlank separator = false) (text : List Char)
    : ((trim text).splitOn separator).map trim = (text.splitOn separator).map trim := by
  rcases exists_append_trim_append text with ⟨before, after, htext, hbefore, hafter⟩
  have hproper {blanks : List Char} (hblanks : ∀ c ∈ blanks, isBlank c = true)
      : separator ∉ blanks := by
    intro hmem
    rw [hblanks separator hmem] at hseparator
    cases hseparator
  rcases exists_splitOn_append (hproper hafter) (trim text) with ⟨pieces, last, hinner, houter⟩
  conv => rhs; rw [htext, splitOn_append (hproper hbefore), houter]
  rw [hinner]
  cases pieces with
  | nil =>
    simp [trim_blanks_append hbefore, trim_append_blanks hafter]
  | cons piece pieces =>
    simp [trim_blanks_append hbefore, trim_append_blanks hafter]

end Pieces

section Cut

variable {separator : Char} {text before after : List Char}

theorem cutAt?_eq_none : cutAt? separator text = none ↔ separator ∉ text := by
  induction text with
  | nil => simp [cutAt?]
  | cons c rest ih =>
    unfold cutAt?
    split
    . next hc => simp [beq_iff_eq.mp hc]
    . next hc =>
      rw [Option.map_eq_none_iff, ih, List.mem_cons]
      have hother : separator ≠ c := fun heq => hc (beq_iff_eq.mpr heq.symm)
      simp [hother]

theorem cutAt?_append_cons (hbefore : separator ∉ before) (after : List Char)
    : cutAt? separator (before ++ separator :: after) = some (before, after) := by
  induction before with
  | nil => simp [cutAt?]
  | cons c rest ih =>
    have hother : (c == separator) = false := by
      rw [beq_eq_false_iff_ne]
      exact (List.ne_of_not_mem_cons hbefore).symm
    rw [List.cons_append, cutAt?, hother, ih (List.not_mem_of_not_mem_cons hbefore)]
    rfl

theorem not_mem_of_cutAt? (hcut : cutAt? separator text = some (before, after))
    : separator ∉ before := by
  induction text generalizing before with
  | nil => cases hcut
  | cons c rest ih =>
    unfold cutAt? at hcut
    split at hcut
    . cases hcut
      exact List.not_mem_nil
    . next hc =>
      rcases Option.map_eq_some_iff.mp hcut with ⟨⟨start, last⟩, hrest, hsome⟩
      cases hsome
      rw [List.mem_cons]
      rintro (heq | hmem)
      . exact hc (beq_iff_eq.mpr heq.symm)
      . exact ih hrest hmem

theorem cutAt?_eq_some
    : cutAt? separator text = some (before, after)
        ↔ separator ∉ before ∧ text = before ++ separator :: after := by
  refine ⟨fun hcut => ⟨not_mem_of_cutAt? hcut, append_of_cutAt? hcut⟩, ?_⟩
  rintro ⟨hbefore, rfl⟩
  exact cutAt?_append_cons hbefore after

end Cut

end DecodePipeline.Text
