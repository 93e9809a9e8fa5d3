import DecodePipeline.Options.Json
import DecodePipeline.Proofs.Json.Floats
import DecodePipeline.Proofs.Json.Strings

/-!
This module contains the reading of records as they are written. A record that is written with some
of its members, in any order, is read as one in which these members are set.
-/

namespace DecodePipeline.Json

namespace Reader

variable {α β : Type}

def MemberEnd (text : List Char) : Prop := ∃ c rest, text = c :: rest ∧ (c = ',' ∨ c = '\x7d')

theorem MemberEnd.noNumber {text : List Char} (hend : MemberEnd text) : NoNumber text := by
  rcases hend with ⟨c, rest, rfl, hc⟩
  constructor
  . rintro _ ⟨⟩
    rcases hc with rfl | rfl <;> rfl
  . rintro _ ⟨⟩
    rcases hc with rfl | rfl <;> exact ⟨rfl, rfl⟩

/-- `reader` finds `value` in `text` where it stands in a record. -/
def Reads (reader : Reader α) (text : String) (value : α) : Prop :=
  ∀ rest, MemberEnd rest → reader.run (text.toList ++ rest) = .ok (value, rest)

theorem Reads.map {reader : Reader α} {text : String} {value : α} (hreads : Reads reader text value)
    (f : α → β)
    : Reads (do return f (← reader)) text (f value) := by
  intro rest hend
  rw [run_bind_of_ok (hreads rest hend)]
  rfl

theorem reads_bool (b : Bool) : Reads bool (Json.bool b) b := by
  intro rest _
  cases b <;> rfl

theorem reads_float {x : Float} (hcovered : IsCovered x) : Reads float (Json.float x) x :=
  fun _ hend => run_float hcovered hend.noNumber

theorem reads_string (written : String) : Reads string (Json.string written) written :=
  fun rest _ => run_string written rest

section Choice

variable {names : List (String × α)} {name : String} {value : α}

theorem run_named (hlookup : names.lookup name = some value) (rest : List Char)
    : (named names).run ((Json.string name).toList ++ rest) = .ok (value, rest) := by
  unfold named
  rw [run_bind_of_ok (run_string name rest), hlookup]
  rfl

theorem run_choice (hlookup : names.lookup name = some value) (rest : List Char)
    : (choice names).run ((Json.string name).toList ++ rest) = .ok (value, rest) := by
  have hnamed := run_named hlookup rest
  unfold choice
  rw [toList_string, List.cons_append] at hnamed ⊢
  rw [run_bind_of_ok (run_valueStart (by rfl) _)]
  exact hnamed

theorem reads_choice [BEq α]
    (hlookup : names.lookup ((names.find? (·.2 == value)).elim "" (·.1)) = some value)
    : Reads (choice names) (Json.choice names value) value :=
  fun rest _ => run_choice hlookup rest

end Choice

section Natural

def naturalText (n : Nat) : Number.Written := ⟨Decimal.digitsOf n, none, none⟩

theorem proper_naturalText (n : Nat) : (naturalText n).Proper where
  whole := ⟨Decimal.digitsOf_ne_nil n, fun _ => Decimal.isDigit_of_mem_digitsOf⟩
  leading := by
    intro c rest hwhole
    change Decimal.digitsOf n = _ at hwhole
    rcases Nat.eq_zero_or_pos n with rfl | hpos
    . cases hwhole
    . exact Decimal.head?_digitsOf hpos (by rw [hwhole]; rfl)
  fraction := nofun

theorem value?_naturalText {n : Nat} (hlt : n < UInt64.size)
    : (naturalText n).value? false = some (.natural n.toUInt64) := by
  have hvalue : Nat.ofDigitChars 10 (Decimal.digitsOf n) 0 = n := Decimal.valueOf_digitsOf n
  have habsorb : Number.absorb 0 (Decimal.digitsOf n) = (n, []) := by
    rw [Number.absorb_all (by rw [hvalue]; exact hlt), hvalue]
  unfold naturalText Number.Written.value?
  dsimp only
  rw [habsorb]
  rfl

theorem text_naturalText (n : Nat) : (naturalText n).text = (naturalText n).whole := by
  simp [naturalText, Number.Written.text, Number.Written.pointText, Number.Written.powerText]

theorem toList_naturalText (n : Nat) : (toString n).toList = (naturalText n).text := by
  rw [text_naturalText, Nat.toString_eq_ofList_toDigits, String.toList_ofList]
  rfl

theorem reads_uint32 (n : UInt32) : Reads uint32 (toString n) n := by
  intro rest hend
  have hproper := proper_naturalText n.toNat
  have hlt : n.toNat < UInt64.size := Nat.lt_trans n.toNat_lt (by decide)
  have hnumber := run_number hproper false (value?_naturalText hlt) hend.noNumber
  rcases head_whole hproper with ⟨c, tail, hwhole, hdigit⟩
  have htext : (naturalText n.toNat).text ++ rest = c :: (tail ++ rest) := by
    rw [text_naturalText, hwhole, List.cons_append]
  have hany := run_anyNumber htext (.inr hdigit) hnumber
  change uint32.run ((toString n.toNat).toList ++ rest) = _
  unfold uint32
  rw [toList_naturalText, run_bind_of_ok hany]
  dsimp only
  have hvalue : n.toNat.toUInt64.toUInt32 = n := by simp
  have hfits : n.toNat.toUInt64.toNat < UInt32.size := by
    simpa using n.toNat_lt
  rw [if_pos hfits, hvalue]
  rfl

end Natural

def NotNull (text : String) : Prop := ∃ c rest, text.toList = c :: rest ∧ isSpace c = false ∧ c ≠ 'n'

theorem notNull_float {x : Float} (hcovered : IsCovered x) : NotNull (Json.float x) := by
  have hstart : ∃ sign m, (Json.float x).toList = signedText sign m := by
    rcases toList_float hcovered.finite with ⟨sign, m, -, -, htext⟩ | ⟨sign, m, e, -, -, htext⟩
    . exact ⟨sign, m, htext⟩
    . exact ⟨sign, _, htext⟩
  rcases hstart with ⟨sign, m, htext⟩
  rcases exists_start sign m [] with ⟨c, rest, hcons, hc⟩
  rw [List.append_nil, ← htext] at hcons
  rcases hc with rfl | hdigit
  . exact ⟨'-', rest, hcons, by rfl, by decide⟩
  . exact ⟨c, rest, hcons, isSpace_of_isDigit hdigit, ne_of_isDigit hdigit rfl⟩

theorem notNull_uint32 (n : UInt32) : NotNull (toString n) := by
  rcases head_whole (proper_naturalText n.toNat) with ⟨c, rest, hwhole, hdigit⟩
  refine ⟨c, rest, ?_, isSpace_of_isDigit hdigit, ne_of_isDigit hdigit rfl⟩
  change (toString n.toNat).toList = _
  rw [toList_naturalText, text_naturalText, hwhole]

theorem notNull_string (written : String) : NotNull (Json.string written) :=
  ⟨'"', _, toList_string written, rfl, by decide⟩

theorem reads_option {reader : Reader α} {write : α → String} {value : Option α}
    (hreads : ∀ x ∈ value, Reads reader (write x) x) (hstart : ∀ x ∈ value, NotNull (write x))
    : Reads (option reader) (Json.option write value) value := by
  intro rest hend
  cases value with
  | none =>
    unfold option
    change StateT.run _ ("null".toList ++ rest) = _
    rw [show "null".toList = ['n', 'u', 'l', 'l'] by rfl, List.cons_append,
      run_bind_of_ok (run_valueStart (by rfl) _), if_pos (by rfl)]
    exact run_bind_of_ok (run_word "null" rest)
  | some x =>
    have hread := hreads x rfl rest hend
    rcases hstart x rfl with ⟨c, tail, htext, hspace, hnull⟩
    unfold Json.option option
    dsimp only
    rw [htext, List.cons_append] at hread ⊢
    rw [run_bind_of_ok (run_valueStart hspace _), if_neg (by simpa using hnull),
      run_bind_of_ok hread]
    rfl

def memberText (field : String × String) : List Char :=
  (Json.string field.1).toList ++ ':' :: field.2.toList

def membersText : Bool → List (String × String) → List Char
  | _, [] => []
  | isFirst, field :: fields =>
    (if isFirst then [] else [',']) ++ (memberText field ++ membersText false fields)

theorem length_le_membersText (isFirst : Bool) (fields : List (String × String))
    : fields.length ≤ (membersText isFirst fields).length := by
  induction fields generalizing isFirst with
  | nil => exact Nat.zero_le _
  | cons field fields ih =>
    have hlength := ih false
    unfold membersText memberText
    simp only [List.length_append, List.length_cons]
    omega

theorem intercalate_memberText (field : String × String) (fields : List (String × String))
    : [','].intercalate ((field :: fields).map memberText)
        = memberText field ++ membersText false fields := by
  induction fields generalizing field with
  | nil => simp [membersText]
  | cons next fields ih =>
    have hnext := ih next
    rw [List.map_cons] at hnext ⊢
    rw [List.map_cons, List.intercalate_cons_cons, hnext]
    simp [membersText]

theorem toList_record (fields : List (String × String))
    : (Json.record fields).toList = '\x7b' :: (membersText true fields ++ ['\x7d']) := by
  have hbody : [','].intercalate (fields.map memberText) = membersText true fields := by
    cases fields with
    | nil => rfl
    | cons field fields =>
      rw [intercalate_memberText, membersText, if_pos rfl, List.nil_append]
  unfold Json.record
  dsimp only
  rw [String.toList_append, String.toList_append, String.toList_intercalate, List.map_map,
    List.map_congr_left (g := memberText) fun field _ => by simp [memberText]]
  change ['\x7b'] ++ [','].intercalate (fields.map memberText) ++ ['\x7d'] = _
  rw [hbody, List.singleton_append, List.cons_append]

theorem run_nextMember (isFirst : Bool) (rest : List Char)
    : (nextMember isFirst).run ((if isFirst then [] else [',']) ++ '"' :: rest)
        = .ok (true, '"' :: rest) := by
  cases isFirst <;> rfl

theorem memberEnd_membersText (fields : List (String × String)) (rest : List Char)
    : MemberEnd (membersText false fields ++ '\x7d' :: rest) := by
  cases fields with
  | nil => exact ⟨'\x7d', rest, rfl, .inr rfl⟩
  | cons field fields => exact ⟨',', _, rfl, .inl rfl⟩

section Members

variable {members : List (Member α)} {set : String → α → α}

variable (members set) in
def IsField (field : String × String) : Prop :=
  ∃ member, members.find? (·.name == field.1) = some member
    ∧ ∀ value, Reads (member.read value) field.2 (set field.1 value)

theorem isField_of_member {name text : String} {reader : Reader β} {found : β} (change : α → β → α)
    (hmember : members.find? (·.name == name)
      = some ⟨name, fun value => return change value (← reader)⟩)
    (hreads : Reads reader text found) (hset : ∀ value, set name value = change value found)
    : IsField members set (name, text) := by
  refine ⟨_, hmember, fun value => ?_⟩
  rw [hset]
  exact hreads.map (change value)

theorem run_membersWithin {fields : List (String × String)}
    (hfields : ∀ field ∈ fields, IsField members set field) (hnodup : (fields.map (·.1)).Nodup)
    {seen : List String} (hseen : ∀ field ∈ fields, field.1 ∉ seen) {bound : Nat}
    (hbound : fields.length < bound) (isFirst : Bool) (value : α) (rest : List Char)
    : (membersWithin members bound isFirst seen value).run
          (membersText isFirst fields ++ '\x7d' :: rest)
        = .ok ((fields.map (·.1)).foldl (fun value name => set name value) value,
          '\x7d' :: rest) := by
  induction fields generalizing seen bound isFirst value with
  | nil =>
    cases bound with
    | zero => cases hbound
    | succ bound => rfl
  | cons field fields ih =>
    cases bound with
    | zero => cases hbound
    | succ bound =>
      rcases hfields field List.mem_cons_self with ⟨member, hmember, hreads⟩
      have hrest := memberEnd_membersText fields rest
      have hname := run_text field.1 (':' :: (field.2.toList
        ++ (membersText false fields ++ '\x7d' :: rest)))
      have hseen' : seen.contains field.1 = false := by
        simpa using hseen field List.mem_cons_self
      unfold membersWithin membersText memberText
      rw [toList_string] at hname ⊢
      simp only [List.append_assoc, List.cons_append] at hname ⊢
      rw [run_bind_of_ok (run_nextMember isFirst _), if_pos rfl, run_bind_of_ok hname, hmember]
      dsimp only
      rw [hseen', if_neg Bool.false_ne_true, run_bind_of_ok (run_symbol (by rfl) _),
        run_bind_of_ok (hreads value _ hrest)]
      -- what is read already is the name of this member and the names before
      rw [List.map_cons, List.nodup_cons] at hnodup
      apply ih (fun other hother => hfields other (List.mem_cons_of_mem _ hother)) hnodup.2 _
        (Nat.lt_of_succ_lt_succ hbound)
      intro other hother hmem
      rcases List.mem_cons.mp hmem with heq | hmem
      . exact hnodup.1 (heq ▸ List.mem_map_of_mem hother)
      . exact hseen other (List.mem_cons_of_mem _ hother) hmem

theorem run_record {fields : List (String × String)}
    (hfields : ∀ field ∈ fields, IsField members set field) (hnodup : (fields.map (·.1)).Nodup)
    (value : α) (rest : List Char)
    : (record members value).run ((Json.record fields).toList ++ rest)
        = .ok ((fields.map (·.1)).foldl (fun value name => set name value) value, rest) := by
  have hbound : fields.length < (membersText true fields ++ '\x7d' :: rest).length + 1 := by
    have hlength := length_le_membersText true fields
    rw [List.length_append]
    omega
  have hmembers := run_membersWithin hfields hnodup (fun _ _ => List.not_mem_nil) hbound true value
    rest
  unfold record
  rw [toList_record, List.cons_append, List.append_assoc, List.singleton_append,
    run_bind_of_ok (run_valueStart (by rfl) _)]
  change StateT.run (advance >>= _) _ = _
  rw [run_bind_of_ok (run_advance ..), run_bind_of_ok (run_get _), run_bind_of_ok hmembers,
    run_bind_of_ok (run_symbol (by rfl) rest)]
  rfl

end Members
end Reader

theorem read_of_run {α : Type} {reader : Reader α} {text : String} {value : α}
    (hrun : reader.run (text.toList ++ []) = .ok (value, []))
    : read reader text = .ok value := by
  rw [List.append_nil] at hrun
  unfold read
  rw [hrun]
  rfl

end DecodePipeline.Json
