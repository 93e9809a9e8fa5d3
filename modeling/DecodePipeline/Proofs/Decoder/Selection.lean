import DecodePipeline.Decoder.Selection
import DecodePipeline.Proofs.Text.Splitting
import Mathlib.Data.List.Basic
import Mathlib.Data.List.Induction

/-!
This module contains the meaning of a selection of decoders: which entries of the catalogue it leaves,
and in which order. Neither depends on where in the selection decoders are removed.
-/

namespace DecodePipeline

section Naming

/--
An item without a colon is the name of a decoder. In one with a colon, what stands before the first colon
is a family, and a star after it stands for all decoders of that family.
-/
def DecoderEntry.Named (item : List Char) (entry : DecoderEntry) : Prop :=
  (':' ∉ item ∧ item = entry.decoder.toList)
    ∨ (':' ∉ entry.family.toList
      ∧ (item = entry.family.toList ++ ':' :: entry.decoder.toList
        ∨ item = entry.family.toList ++ [':', '*']))

instance (item : List Char) : DecidablePred (DecoderEntry.Named item) :=
  fun _ => inferInstanceAs (Decidable (_ ∨ _))

theorem DecoderEntry.named_iff_cutAt? {item : List Char} {entry : DecoderEntry}
    : entry.Named item
        ↔ (Text.cutAt? ':' item = none ∧ item = entry.decoder.toList)
          ∨ Text.cutAt? ':' item = some (entry.family.toList, entry.decoder.toList)
          ∨ Text.cutAt? ':' item = some (entry.family.toList, ['*']) := by
  unfold Named
  rw [Text.cutAt?_eq_none, Text.cutAt?_eq_some, Text.cutAt?_eq_some, and_or_left]

theorem DecoderName.names_ofText (item : List Char) (entry : DecoderEntry)
    : (DecoderName.ofText item).names entry = true ↔ entry.Named item := by
  have htext (text : List Char) (s : String) : String.ofList text = s ↔ text = s.toList := by
    rw [← String.toList_inj, String.toList_ofList]
  rw [DecoderEntry.named_iff_cutAt?]
  unfold DecoderName.ofText
  cases hcut : Text.cutAt? ':' item with
  | none => simp [names, htext]
  | some cut =>
    rcases cut with ⟨family, decoder⟩
    split
    . next hnone => cases hnone
    . next star hstar =>
      cases hstar
      simp only [names, beq_iff_eq, htext, reduceCtorEq, false_and, false_or, Option.some.injEq,
        Prod.mk.injEq, and_true]
      exact (or_iff_right_of_imp And.left).symm
    . next other hother hsome =>
      cases hsome
      have hplain : decoder ≠ ['*'] := hother
      simp [names, htext, hplain]

end Naming

namespace DecoderEntry

section Appending

variable {entries more : List DecoderEntry}

theorem appendNew_concat (entries more : List DecoderEntry) (last : DecoderEntry)
    : appendNew entries (more ++ [last])
        = if (appendNew entries more).contains last then appendNew entries more
          else appendNew entries more ++ [last] := by
  unfold appendNew
  rw [List.foldl_append]
  rfl

theorem mem_appendNew {entry : DecoderEntry}
    : entry ∈ appendNew entries more ↔ entry ∈ entries ∨ entry ∈ more := by
  induction more using List.reverseRecOn with
  | nil => simp [appendNew]
  | append_singleton more last ih =>
    rw [appendNew_concat, List.mem_append, List.mem_singleton, ← or_assoc, ← ih]
    split
    . next hold =>
      have hmem : last ∈ appendNew entries more := by simpa using hold
      refine ⟨.inl, ?_⟩
      rintro (hentry | rfl)
      . exact hentry
      . exact hmem
    . rw [List.mem_append, List.mem_singleton]

theorem pairwise_appendNew {before : DecoderEntry → DecoderEntry → Prop}
    (hentries : entries.Pairwise before)
    (hcross : ∀ a ∈ entries, ∀ b ∈ more, b ∉ entries → before a b)
    (hmore : ∀ a ∈ more, ∀ b ∈ more, a ∉ entries → b ∉ entries → more.idxOf a < more.idxOf b →
      before a b)
    : (appendNew entries more).Pairwise before := by
  induction more using List.reverseRecOn with
  | nil => exact hentries
  | append_singleton more last ih =>
    have hshort : (appendNew entries more).Pairwise before := by
      apply ih
      . exact fun a ha b hb => hcross a ha b (List.mem_append_left _ hb)
      . intro a ha b hb hanew hbnew hlt
        apply hmore a (List.mem_append_left _ ha) b (List.mem_append_left _ hb) hanew hbnew
        rw [List.idxOf_append_of_mem ha, List.idxOf_append_of_mem hb]
        exact hlt
    rw [appendNew_concat]
    split
    . exact hshort
    -- A new entry stands behind all others, so it has to come after each of them.
    . next hnew =>
      have hfresh : last ∉ entries ∧ last ∉ more := by
        have hfresh : last ∉ appendNew entries more := by simpa using hnew
        rw [mem_appendNew, not_or] at hfresh
        exact hfresh
      have hlast : last ∈ more ++ [last] := List.mem_append_right _ (List.mem_singleton_self last)
      rw [List.pairwise_append]
      refine ⟨hshort, List.pairwise_singleton before last, ?_⟩
      intro a ha b hb
      cases List.mem_singleton.mp hb
      by_cases hold : a ∈ entries
      . exact hcross a hold last hlast hfresh.1
      . have hmem := (mem_appendNew.mp ha).resolve_left hold
        apply hmore a (List.mem_append_left _ hmem) last hlast hold hfresh.1
        rw [List.idxOf_append_of_mem hmem, List.idxOf_append_of_notMem hfresh.2]
        have hlength := List.idxOf_lt_length_of_mem hmem
        omega

theorem idxOf_lt_of_filter {p : DecoderEntry → Bool} {a b : DecoderEntry} (ha : p a = true)
    (hb : p b = true) (hlt : (entries.filter p).idxOf a < (entries.filter p).idxOf b)
    : entries.idxOf a < entries.idxOf b := by
  induction entries with
  | nil => exact hlt
  | cons entry rest ih =>
    have hother {c : DecoderEntry} (hc : p c = true) (hentry : p entry = false)
        : (entry == c) = false := by
      rw [beq_eq_false_iff_ne]
      rintro rfl
      rw [hc] at hentry
      cases hentry
    rw [List.idxOf_cons, List.idxOf_cons]
    cases hentry : p entry with
    | true =>
      rw [List.filter_cons_of_pos hentry, List.idxOf_cons, List.idxOf_cons] at hlt
      cases hbentry : entry == b with
      | true => simp [hbentry] at hlt
      | false =>
        cases haentry : entry == a with
        | true => exact Nat.succ_pos _
        | false =>
          rw [haentry, hbentry] at hlt
          exact Nat.succ_lt_succ (ih (Nat.lt_of_succ_lt_succ hlt))
    | false =>
      rw [List.filter_cons_of_neg (by simp [hentry])] at hlt
      rw [hother ha hentry, hother hb hentry]
      exact Nat.succ_lt_succ (ih hlt)

end Appending

section Preferring

variable {candidates : List DecoderEntry} {items : List SelectionItem} {entry : DecoderEntry}

theorem preferred_concat (candidates : List DecoderEntry) (items : List SelectionItem)
    (last : SelectionItem)
    : preferred candidates (items ++ [last])
        = appendNew (preferred candidates items) (candidates.filter last.prefers) := by
  unfold preferred
  rw [List.foldl_append]
  rfl

theorem mem_preferred
    : entry ∈ preferred candidates items
        ↔ entry ∈ candidates ∧ ∃ item ∈ items, item.prefers entry = true := by
  induction items using List.reverseRecOn with
  | nil => simp [preferred]
  | append_singleton items last ih =>
    rw [preferred_concat, mem_appendNew, ih, List.mem_filter, ← and_or_left]
    refine and_congr_right fun _ => ?_
    simp [or_and_right, exists_or]

def rank (items : List SelectionItem) (entry : DecoderEntry) : Nat :=
  items.findIdx (·.prefers entry)

theorem rank_of_unnamed (hunnamed : ∀ item ∈ items, item.prefers entry = false)
    : rank items entry = items.length :=
  List.findIdx_eq_length.mpr hunnamed

theorem rank_append_of_named (more : List SelectionItem)
    (hnamed : ∃ item ∈ items, item.prefers entry = true)
    : rank (items ++ more) entry = rank items entry := by
  unfold rank
  rw [List.findIdx_append, if_pos (List.findIdx_lt_length.mpr hnamed)]

theorem rank_concat_of_new {last : SelectionItem}
    (hunnamed : ¬ ∃ item ∈ items, item.prefers entry = true) (hlast : last.prefers entry = true)
    : rank (items ++ [last]) entry = items.length := by
  unfold rank
  rw [List.findIdx_append, if_neg (List.findIdx_lt_length.not.mpr hunnamed)]
  simp [hlast]

def Before (items : List SelectionItem) (candidates : List DecoderEntry) (a b : DecoderEntry) :
    Prop :=
  rank items a < rank items b
    ∨ (rank items a = rank items b ∧ candidates.idxOf a < candidates.idxOf b)

theorem pairwise_preferred (candidates : List DecoderEntry) (items : List SelectionItem)
    : (preferred candidates items).Pairwise (Before items candidates) := by
  induction items using List.reverseRecOn with
  | nil => exact List.Pairwise.nil
  | append_singleton items last ih =>
    have hnew {b : DecoderEntry} (hb : b ∈ candidates.filter last.prefers)
        (hbnew : b ∉ preferred candidates items)
        : rank (items ++ [last]) b = items.length := by
      rcases List.mem_filter.mp hb with ⟨hcandidate, hlast⟩
      exact rank_concat_of_new (fun hnamed => hbnew (mem_preferred.mpr ⟨hcandidate, hnamed⟩)) hlast
    rw [preferred_concat]
    apply pairwise_appendNew
    . refine ih.imp_of_mem ?_
      intro a b ha hb hbefore
      unfold Before
      rw [rank_append_of_named _ (mem_preferred.mp ha).2,
        rank_append_of_named _ (mem_preferred.mp hb).2]
      exact hbefore
    . intro a ha b hb hbnew
      left
      rw [hnew hb hbnew, rank_append_of_named _ (mem_preferred.mp ha).2]
      exact List.findIdx_lt_length.mpr (mem_preferred.mp ha).2
    . intro a ha b hb hanew hbnew hlt
      right
      rw [hnew ha hanew, hnew hb hbnew]
      exact ⟨rfl, idxOf_lt_of_filter (List.mem_filter.mp ha).2 (List.mem_filter.mp hb).2 hlt⟩

theorem pairwise_preferred_fallback (candidates : List DecoderEntry) (items : List SelectionItem)
    : (appendNew (preferred candidates items) candidates).Pairwise (Before items candidates) := by
  have hrest {b : DecoderEntry} (hb : b ∈ candidates) (hbnew : b ∉ preferred candidates items)
      : rank items b = items.length := by
    apply rank_of_unnamed
    intro item hitem
    by_contra hprefers
    rw [Bool.not_eq_false] at hprefers
    exact hbnew (mem_preferred.mpr ⟨hb, item, hitem, hprefers⟩)
  apply pairwise_appendNew (pairwise_preferred candidates items)
  . intro a ha b hb hbnew
    left
    rw [hrest hb hbnew]
    exact List.findIdx_lt_length.mpr (mem_preferred.mp ha).2
  . intro a ha b hb hanew hbnew hlt
    right
    rw [hrest ha hanew, hrest hb hbnew]
    exact ⟨rfl, hlt⟩

theorem preferred_filter (candidates : List DecoderEntry) (items : List SelectionItem)
    : preferred candidates (items.filter (· matches .prefer _)) = preferred candidates items := by
  unfold preferred
  rw [List.foldl_filter]
  congr
  funext entries item
  cases item with
  | prefer name => rfl
  | exclude name | noFallback =>
    have hnone : candidates.filter (fun _ => false) = [] := by simp
    exact (congrArg (appendNew entries) hnone).symm

end Preferring

end DecoderEntry

namespace SelectionItem

def texts (selection : String) : List (List Char) :=
  ((selection.toList.splitOn ',').map Text.trim).filter (!·.isEmpty)

def wishes (selection : String) : List (List Char) :=
  (texts selection).filter (·.head? != some '-')

theorem list_eq (selection : String) : list selection = (texts selection).map ofText := by
  unfold list texts
  rw [Text.pieces_eq_splitOn, Text.map_trim_splitOn_trim (by decide)]

theorem ofText_wish {text : List Char} (hwish : text.head? ≠ some '-')
    : ofText text = .prefer (.ofText text) := by
  unfold ofText
  split
  . simp at hwish
  . simp at hwish
  . rfl

theorem ofText_removal {name : List Char} (hname : name ≠ [])
    : ofText ('-' :: name) = .exclude (.ofText name) := by
  unfold ofText
  split
  . next heq => simp_all
  . next name' _ heq =>
    cases heq
    rfl
  . next hother => exact absurd rfl (hother name)

theorem ofText_cases (text : List Char)
    : (text = ['-'] ∧ ofText text = .noFallback)
        ∨ (∃ name, name ≠ [] ∧ text = '-' :: name ∧ ofText text = .exclude (.ofText name))
        ∨ (text.head? ≠ some '-' ∧ ofText text = .prefer (.ofText text)) := by
  by_cases hwish : text.head? = some '-'
  . rcases List.head?_eq_some_iff.mp hwish with ⟨name, rfl⟩
    by_cases hname : name = []
    . subst hname
      exact .inl ⟨rfl, rfl⟩
    . exact .inr (.inl ⟨name, hname, rfl, ofText_removal hname⟩)
  . exact .inr (.inr ⟨hwish, ofText_wish hwish⟩)

theorem filter_list (selection : String)
    : (list selection).filter (· matches .prefer _)
        = (wishes selection).map fun wish => .prefer (.ofText wish) := by
  unfold wishes
  rw [list_eq, List.filter_map]
  have hsame : ((fun item : SelectionItem => item matches .prefer _) ∘ ofText)
      = fun text => text.head? != some '-' := by
    funext text
    rcases ofText_cases text with ⟨rfl, htext⟩ | ⟨name, hname, rfl, htext⟩ | ⟨hwish, htext⟩
    . rfl
    . simp [htext]
    . simp [htext, hwish]
  rw [hsame]
  apply List.map_congr_left
  intro text htext
  have hwish := (List.mem_filter.mp htext).2
  exact ofText_wish (by simpa using hwish)

variable {selection : String} {entry : DecoderEntry}

theorem noFallback_mem_list : .noFallback ∈ list selection ↔ ['-'] ∈ texts selection := by
  rw [list_eq, List.mem_map]
  refine ⟨?_, fun htext => ⟨['-'], htext, rfl⟩⟩
  rintro ⟨text, hmem, heq⟩
  rcases ofText_cases text with ⟨rfl, -⟩ | ⟨name, -, -, htext⟩ | ⟨-, htext⟩
  . exact hmem
  . rw [htext] at heq
    cases heq
  . rw [htext] at heq
    cases heq

theorem exists_prefers
    : (∃ item ∈ list selection, item.prefers entry = true)
        ↔ ∃ wish ∈ wishes selection, entry.Named wish := by
  have hfilter : (∃ item ∈ list selection, item.prefers entry = true)
      ↔ ∃ item ∈ (list selection).filter (· matches .prefer _), item.prefers entry = true := by
    refine exists_congr fun item => ?_
    rw [List.mem_filter, and_assoc]
    refine and_congr_right fun _ => ?_
    cases item <;> simp [prefers]
  rw [hfilter, filter_list]
  simp only [List.mem_map, exists_exists_and_eq_and]
  refine exists_congr fun wish => and_congr_right fun _ => ?_
  exact DecoderName.names_ofText wish entry

theorem exists_excludes
    : (list selection).any (·.excludes entry) = true
        ↔ ∃ name, name ≠ [] ∧ '-' :: name ∈ texts selection ∧ entry.Named name := by
  rw [list_eq, List.any_map, List.any_eq_true]
  refine ⟨?_, ?_⟩
  . rintro ⟨text, hmem, hexcludes⟩
    rw [Function.comp_apply] at hexcludes
    rcases ofText_cases text with ⟨rfl, -⟩ | ⟨name, hname, rfl, htext⟩ | ⟨-, htext⟩
    . cases hexcludes
    . rw [htext] at hexcludes
      exact ⟨name, hname, hmem, (DecoderName.names_ofText name entry).mp hexcludes⟩
    . rw [htext] at hexcludes
      cases hexcludes
  . rintro ⟨name, hname, hmem, hnamed⟩
    refine ⟨'-' :: name, hmem, ?_⟩
    rw [Function.comp_apply, ofText_removal hname]
    exact (DecoderName.names_ofText name entry).mpr hnamed

end SelectionItem

namespace DecoderEntry

open SelectionItem

/-- What is wished for first comes first, and what is not wished for comes last, as in the catalogue. -/
def Precedes (wishes : List (List Char)) (catalogue : List DecoderEntry) (a b : DecoderEntry) : Prop :=
  let rank (entry : DecoderEntry) := wishes.findIdx fun wish => decide (entry.Named wish)
  rank a < rank b ∨ (rank a = rank b ∧ catalogue.idxOf a < catalogue.idxOf b)

theorem rank_wishes (wishes : List (List Char)) (entry : DecoderEntry)
    : rank (wishes.map fun wish => .prefer (.ofText wish)) entry
        = wishes.findIdx fun wish => decide (entry.Named wish) := by
  unfold rank
  rw [List.findIdx_map]
  congr
  funext wish
  rw [Bool.eq_iff_iff, decide_eq_true_iff]
  exact DecoderName.names_ofText wish entry

theorem visible?_eq_none {selection : Option String}
    : visible? selection = none
        ↔ ∀ text, selection = some text → text.toList.all Text.isBlank = true := by
  unfold visible?
  rw [Option.filter_eq_none_iff]
  refine forall_congr' fun text => imp_congr_right fun _ => ?_
  rw [← Text.trim_eq_nil]
  simp

theorem select_of_visible?_none {selection : Option String} (hvisible : visible? selection = none)
    (catalogue : List DecoderEntry) (codec : String)
    : select catalogue codec selection = catalogue.filter (·.codec == codec) := by
  unfold select
  rw [hvisible]

section Select

variable {text : String} {catalogue : List DecoderEntry} {codec : String}

theorem select_of_visible (hvisible : text.toList.all Text.isBlank = false)
    (catalogue : List DecoderEntry) (codec : String)
    : select catalogue codec (some text)
        = (let candidates := catalogue.filter (·.codec == codec)
          let entries := preferred candidates (list text)
          if .noFallback ∈ list text then entries else appendNew entries candidates).filter
            fun entry => !(list text).any (·.excludes entry) := by
  have hsome : visible? (some text) = some text := by
    have htrim : Text.trim text.toList ≠ [] := by simp [Text.trim_eq_nil, hvisible]
    simp [visible?, Option.filter, htrim]
  unfold select
  rw [hsome]
  simp only [List.contains_iff_mem]

theorem mem_select (hvisible : text.toList.all Text.isBlank = false) {entry : DecoderEntry}
    : entry ∈ select catalogue codec (some text)
        ↔ entry ∈ catalogue ∧ entry.codec = codec
          ∧ (∀ name, name ≠ [] → '-' :: name ∈ texts text → ¬ entry.Named name)
          ∧ (['-'] ∈ texts text → ∃ wish ∈ wishes text, entry.Named wish) := by
  have hkept : (!(list text).any (·.excludes entry)) = true
      ↔ ∀ name, name ≠ [] → '-' :: name ∈ texts text → ¬ entry.Named name := by
    rw [Bool.not_eq_true', ← Bool.not_eq_true, exists_excludes]
    simp only [not_exists, not_and]
  have hcandidate : entry ∈ catalogue.filter (·.codec == codec)
      ↔ entry ∈ catalogue ∧ entry.codec = codec := by
    rw [List.mem_filter, beq_iff_eq]
  rw [select_of_visible hvisible, List.mem_filter, hkept, ← noFallback_mem_list, ← exists_prefers]
  dsimp only
  split
  . next hlone =>
    rw [mem_preferred, hcandidate]
    refine ⟨?_, ?_⟩
    . rintro ⟨⟨⟨hmem, hcodec⟩, hwished⟩, hkeeps⟩
      exact ⟨hmem, hcodec, hkeeps, fun _ => hwished⟩
    . rintro ⟨hmem, hcodec, hkeeps, hwished⟩
      exact ⟨⟨⟨hmem, hcodec⟩, hwished hlone⟩, hkeeps⟩
  . next hlone =>
    rw [mem_appendNew, mem_preferred, hcandidate]
    refine ⟨?_, ?_⟩
    . rintro ⟨hsome, hkeeps⟩
      rcases hsome.elim And.left id with ⟨hmem, hcodec⟩
      exact ⟨hmem, hcodec, hkeeps, fun hfound => absurd hfound hlone⟩
    . rintro ⟨hmem, hcodec, hkeeps, -⟩
      exact ⟨.inr ⟨hmem, hcodec⟩, hkeeps⟩

theorem mem_catalogue_of_mem_select {selection : Option String} {entry : DecoderEntry}
    (hmem : entry ∈ select catalogue codec selection)
    : entry ∈ catalogue ∧ entry.codec = codec := by
  by_cases hblank : ∀ text, selection = some text → text.toList.all Text.isBlank = true
  . rw [select_of_visible?_none (visible?_eq_none.mpr hblank), List.mem_filter, beq_iff_eq] at hmem
    exact hmem
  . push Not at hblank
    rcases hblank with ⟨text, rfl, hvisible⟩
    rcases (mem_select (Bool.not_eq_true _ ▸ hvisible)).mp hmem with ⟨hcatalogue, hcodec, -⟩
    exact ⟨hcatalogue, hcodec⟩

theorem pairwise_select (hvisible : text.toList.all Text.isBlank = false)
    (catalogue : List DecoderEntry) (codec : String)
    : (select catalogue codec (some text)).Pairwise (Precedes (wishes text) catalogue) := by
  let candidates := catalogue.filter (·.codec == codec)
  let wanted : List SelectionItem := (wishes text).map fun wish => .prefer (.ofText wish)
  have hordered : (if SelectionItem.noFallback ∈ list text then preferred candidates (list text)
      else appendNew (preferred candidates (list text)) candidates).Pairwise
        (Before wanted candidates) := by
    rw [← preferred_filter, filter_list]
    split
    . exact pairwise_preferred candidates wanted
    . exact pairwise_preferred_fallback candidates wanted
  rw [select_of_visible hvisible]
  refine (hordered.filter _).imp_of_mem ?_
  intro a b ha hb hbefore
  have hcandidate {c : DecoderEntry} (hc : c ∈ select catalogue codec (some text))
      : (c.codec == codec) = true :=
    beq_iff_eq.mpr ((mem_select hvisible).mp hc).2.1
  rw [select_of_visible hvisible] at hcandidate
  unfold Before at hbefore
  rw [rank_wishes, rank_wishes] at hbefore
  exact hbefore.imp_right (And.imp_right (idxOf_lt_of_filter (hcandidate ha) (hcandidate hb)))

theorem nodup_of_pairwise_precedes {wishes : List (List Char)} {entries : List DecoderEntry}
    (hpairwise : entries.Pairwise (Precedes wishes catalogue))
    : entries.Nodup := by
  refine hpairwise.imp ?_
  rintro a _ hprecedes rfl
  unfold Precedes at hprecedes
  dsimp only at hprecedes
  omega

theorem eq_of_pairwise_precedes {wishes : List (List Char)} {entries more : List DecoderEntry}
    (hentries : entries.Pairwise (Precedes wishes catalogue))
    (hmore : more.Pairwise (Precedes wishes catalogue))
    (hsame : ∀ entry, entry ∈ entries ↔ entry ∈ more)
    : entries = more := by
  have hperm : entries.Perm more := by
    rw [List.perm_ext_iff_of_nodup (nodup_of_pairwise_precedes hentries)
      (nodup_of_pairwise_precedes hmore)]
    exact hsame
  refine hperm.eq_of_pairwise ?_ hentries hmore
  intro a b _ _ hab hba
  unfold Precedes at hab hba
  dsimp only at hab hba
  omega

/--
Without a visible selection, all decoders of the codec are left, in the order of the catalogue. With one,
these are the decoders of the codec that no item removes and, if there is a lone `-`, that some item names.
Each of them comes once, by the first item that names it and then as in the catalogue. Where in the
selection decoders are removed does not matter.
-/
theorem select_meets_specification (catalogue : List DecoderEntry) (codec : String)
    (selection : Option String)
    : ((∀ text, selection = some text → text.toList.all Text.isBlank = true) →
        select catalogue codec selection = catalogue.filter (·.codec == codec))
        ∧ ∀ text, selection = some text → text.toList.all Text.isBlank = false →
          let entries := select catalogue codec selection
          (∀ entry, entry ∈ entries
              ↔ entry ∈ catalogue ∧ entry.codec = codec
                ∧ (∀ name, name ≠ [] → '-' :: name ∈ texts text → ¬ entry.Named name)
                ∧ (['-'] ∈ texts text → ∃ wish ∈ wishes text, entry.Named wish))
            ∧ entries.Nodup
            ∧ entries.Pairwise (Precedes (wishes text) catalogue)
            ∧ ∀ other : String, other.toList.all Text.isBlank = false → wishes other = wishes text →
              (∀ name, '-' :: name ∈ texts other ↔ '-' :: name ∈ texts text) →
                select catalogue codec (some other) = entries := by
  refine ⟨fun hblank => select_of_visible?_none (visible?_eq_none.mpr hblank) catalogue codec, ?_⟩
  rintro text rfl hvisible entries
  have hpairwise := pairwise_select hvisible catalogue codec
  refine ⟨fun entry => mem_select hvisible, nodup_of_pairwise_precedes hpairwise, hpairwise, ?_⟩
  intro other hother hwishes hremoved
  have hpairwise' := pairwise_select hother catalogue codec
  rw [hwishes] at hpairwise'
  apply eq_of_pairwise_precedes hpairwise' hpairwise
  intro entry
  rw [mem_select hother, mem_select hvisible, hwishes, hremoved []]
  simp only [hremoved]

def sampleCatalogue : List DecoderEntry :=
  [⟨"near", "vp9", "fast", ""⟩, ⟨"near", "vp9", "safe", ""⟩, ⟨"far", "vp9", "fast", ""⟩]

theorem sample_select_meets_specification
    : let entries := select sampleCatalogue "vp9" (some "safe, fast , -far:*")
      entries = [⟨"near", "vp9", "safe", ""⟩, ⟨"near", "vp9", "fast", ""⟩]
        ∧ entries.Pairwise (Precedes (wishes "safe, fast , -far:*") sampleCatalogue)
        ∧ select sampleCatalogue "vp9" (some "-far:*,safe,fast") = entries := by
  have htexts : texts "safe, fast , -far:*"
      = ["safe".toList, "fast".toList, "-far:*".toList] := by
    decide +kernel
  have htexts' : texts "-far:*,safe,fast"
      = ["-far:*".toList, "safe".toList, "fast".toList] := by
    decide +kernel
  rcases (select_meets_specification sampleCatalogue "vp9" (some "safe, fast , -far:*")).2 _ rfl
    (by decide +kernel) with ⟨-, -, hpairwise, hother⟩
  refine ⟨by decide +kernel, hpairwise, hother "-far:*,safe,fast" (by decide +kernel) ?_ ?_⟩
  . decide +kernel
  . intro name
    rw [htexts, htexts']
    simp

end Select

end DecoderEntry
end DecodePipeline
