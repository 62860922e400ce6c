import BeamInit.Beamctl

/-! # Labels — what is printed can be typed again

    The list command prints the labels of a service with the separator that the
    command line splits at.  Keys and values that were accepted hold neither of the
    two separators, so the printed text stands for one map only. -/

namespace BeamLabels

open BeamApi BeamCtl LastWins

/-! ## `intersperse` -/

/-- How many elements are taken. -/
def interspersedLen (len : Nat) : Nat := if len = 0 then 0 else 2 * len - 1

/-- `intersperse`: the separator is put after every item, and the last one is cut off. -/
def intersperse {Sep T : Type} (into : Sep → T) (sep : Sep) (items : List T) : List T :=
  (items.flatMap (fun item => [item, into sep])).take (interspersedLen items.length)

/-- The code counts in machine words, which are enough for what memory holds. -/
theorem interspersedLen_usize {len : UInt64} (hmemory : len.toNat < 2 ^ 63) :
    (if len = 0 then 0 else 2 * len - 1).toNat = interspersedLen len.toNat := by
  rw [interspersedLen]
  by_cases hzero : len = 0
  · rw [if_pos hzero, hzero]
    rfl
  · have hpos : len.toNat ≠ 0 := fun h => hzero (UInt64.toNat_inj.mp h)
    have htwice : (2 * len).toNat = 2 * len.toNat := by
      rw [UInt64.toNat_mul]
      exact Nat.mod_eq_of_lt (by simp; omega)
    rw [if_neg hzero, if_neg hpos, UInt64.toNat_sub_of_le, htwice]
    · rfl
    · rw [UInt64.le_iff_toNat_le, htwice]
      simp
      omega

/-- `intersperse` puts a separator between any two items. -/
theorem intersperse_eq {Sep T : Type} (into : Sep → T) (sep : Sep) (items : List T) :
    intersperse into sep items = items.intersperse (into sep) := by
  induction items with
  | nil => rfl
  | cons item items ih =>
      cases items with
      | nil => rfl
      | cons next items =>
          have hlen : interspersedLen (item :: next :: items).length
              = interspersedLen (next :: items).length + 2 := rfl
          rw [List.intersperse_cons_cons, ← ih, intersperse, intersperse, hlen, List.flatMap_cons]
          rfl

example : intersperse id 0 [1, 2, 3] = [1, 0, 2, 0, 3] := by decide

/-! ## `display_labels` -/

/-- `format!("{key}={value}")`. -/
def labelText (label : Label) : String := label.1 ++ "=" ++ label.2

def displayLabels (labels : BTreeMap String String) : String :=
  if labels.isEmpty then ""
  else String.join (intersperse id "," (labels.toList.map labelText))

/-- `str::split` at every comma, as the command line splits a list of labels. -/
def splitAtCommas (text : String) : List String := (text.toList.splitOn ',').map String.ofList

/-- The labels of a command line: each piece is parsed, and the pairs are collected. -/
def parseLabels (text : String) : Except ParseLabelError (BTreeMap String String) := do
  let entries ← (splitAtCommas text).mapM parseLabel
  return .ofList entries compare

/-- Every entry was accepted from an argument without a comma. -/
def Accepted (labels : BTreeMap String String) : Prop :=
  ∀ key value : String, labels[key]? = some value →
    ∃ argument : String, ',' ∉ argument.toList ∧ parseLabel argument = .ok (key, value)

/-! ### What is printed -/

/-- Mapping and joining what is interspersed is joining with the separator between. -/
theorem flatMap_intersperse {α β : Type} (f : α → List β) (sep : α) (items : List α) :
    (items.intersperse sep).flatMap f = (f sep).intercalate (items.map f) := by
  induction items with
  | nil => rfl
  | cons item items ih =>
      cases items with
      | nil => rfl
      | cons next items =>
          rw [List.intersperse_cons_cons, List.flatMap_cons, List.flatMap_cons, ih]
          rfl

/-- Labels are shown as their texts with commas between. -/
theorem toList_displayLabels {labels : BTreeMap String String} (hne : labels ≠ ∅) :
    (displayLabels labels).toList
      = [','].intercalate ((labels.toList.map labelText).map String.toList) := by
  have hempty : ¬ labels.isEmpty = true := fun h => hne (Std.ExtTreeMap.isEmpty_iff.mp h)
  rw [displayLabels, if_neg hempty, String.toList_join, intersperse_eq]
  exact flatMap_intersperse String.toList "," _

/-- Without commas in the pieces, splitting gives the pieces back. -/
theorem splitAtCommas_displayLabels {labels : BTreeMap String String} (hne : labels ≠ ∅)
    (hcommas : ∀ label ∈ labels.toList, ',' ∉ (labelText label).toList) :
    splitAtCommas (displayLabels labels) = labels.toList.map labelText := by
  have hpieces : (labels.toList.map labelText).map String.toList ≠ [] := by
    rw [List.map_map]
    exact fun h => hne (Std.ExtTreeMap.toList_eq_nil_iff.mp (List.map_eq_nil_iff.mp h))
  have hclean : ∀ piece ∈ (labels.toList.map labelText).map String.toList, ',' ∉ piece := by
    rw [List.map_map]
    exact List.forall_mem_map.mpr hcommas
  have hback : String.ofList ∘ String.toList = id := funext fun _ => String.ofList_toList
  rw [splitAtCommas, toList_displayLabels hne, List.splitOn_intercalate ',' hclean hpieces,
    List.map_map, hback, List.map_id]

/-! ### The way back -/

/-- An accepted entry is printed as it was typed. -/
theorem labelText_of_parsed {argument : String} {label : Label}
    (h : parseLabel argument = .ok label) : labelText label = argument := by
  rw [labelText]
  exact (parseLabel_eq_ok.mp h).1.symm

/-- Texts that parse as their labels do so one after the other. -/
theorem mapM_parseLabel {entries : List Label}
    (h : ∀ label ∈ entries, parseLabel (labelText label) = .ok label) :
    (entries.map labelText).mapM parseLabel = .ok entries := by
  induction entries with
  | nil => rfl
  | cons label entries ih =>
      obtain ⟨hlabel, hentries⟩ := List.forall_mem_cons.mp h
      rw [List.map_cons, List.mapM_cons, hlabel, ih hentries]
      rfl

/-- An accepted label is shown without a comma, and its text parses as the label. -/
theorem Accepted.entry {labels : BTreeMap String String} (h : Accepted labels) {label : Label}
    (hmem : label ∈ labels.toList) :
    ',' ∉ (labelText label).toList ∧ parseLabel (labelText label) = .ok label := by
  obtain ⟨argument, hcomma, hparsed⟩ :=
    h label.1 label.2 (Std.ExtTreeMap.mem_toList_iff_getElem?_eq_some.mp hmem)
  obtain rfl : labelText label = argument := labelText_of_parsed hparsed
  exact ⟨hcomma, hparsed⟩

/-- **The round trip**: the printed labels are parsed to the map they were printed from. -/
theorem parseLabels_displayLabels {labels : BTreeMap String String} (hne : labels ≠ ∅)
    (h : Accepted labels) : parseLabels (displayLabels labels) = .ok labels := by
  have hsplit := splitAtCommas_displayLabels hne fun label hmem => (h.entry hmem).1
  have hcollected : Std.ExtTreeMap.ofList labels.toList compare = labels :=
    ofList_perm_toList (List.Perm.refl _)
  rw [parseLabels, hsplit, mapM_parseLabel fun label hmem => (h.entry hmem).2]
  exact congrArg Except.ok hcollected

/-- Different accepted labels are shown differently. -/
theorem displayLabels_injective {labels other : BTreeMap String String} (hne : labels ≠ ∅)
    (h : Accepted labels) (hne' : other ≠ ∅) (h' : Accepted other)
    (heq : displayLabels labels = displayLabels other) : labels = other := by
  have hparsed := parseLabels_displayLabels hne h
  rw [heq, parseLabels_displayLabels hne' h'] at hparsed
  exact (Except.ok.inj hparsed).symm

/-- **WHAT IS PRINTED CAN BE TYPED AGAIN**: the pieces between the commas are all
    accepted and collect to the printed map, so different maps are printed
    differently.  Between two items there is one separator, and none at the ends. -/
theorem display_labels_round_trip (labels : BTreeMap String String) (hne : labels ≠ ∅)
    (haccepted : Accepted labels) :
    (∃ entries, (splitAtCommas (displayLabels labels)).mapM parseLabel = .ok entries
        ∧ Std.ExtTreeMap.ofList entries compare = labels)
      ∧ (∀ other, other ≠ ∅ → Accepted other → other ≠ labels →
        displayLabels other ≠ displayLabels labels)
      ∧ ∀ (Sep T : Type) (into : Sep → T) (sep : Sep) (items : List T),
        (intersperse into sep items).length = 2 * items.length - 1
          ∧ (∀ i : Nat, (intersperse into sep items)[2 * i]? = items[i]?)
          ∧ ∀ i : Nat, i + 1 < items.length →
            (intersperse into sep items)[2 * i + 1]? = some (into sep) := by
  refine ⟨?_, fun other hne' hother hdiffer heq => ?_, fun Sep T into sep items => ?_⟩
  · have hparsed := parseLabels_displayLabels hne haccepted
    rw [parseLabels] at hparsed
    cases hentries : (splitAtCommas (displayLabels labels)).mapM parseLabel with
    | error err =>
        rw [hentries] at hparsed
        cases hparsed
    | ok entries =>
        rw [hentries] at hparsed
        exact ⟨entries, rfl, Except.ok.inj hparsed⟩
  · exact hdiffer (displayLabels_injective hne' hother hne haccepted heq)
  · rw [intersperse_eq]
    exact ⟨List.length_intersperse, fun i => List.getElem?_intersperse_two_mul,
      fun i hi => List.getElem?_intersperse_two_mul_add_one hi⟩

/-- Two labels, one of them with neither a key nor a value. -/
def pairs : BTreeMap String String := .ofList [("prio", "high"), ("", "")] compare

theorem display_labels_round_trip_pairs :
    displayLabels pairs = "=,prio=high"
      ∧ ∃ entries, (splitAtCommas (displayLabels pairs)).mapM parseLabel = .ok entries
        ∧ Std.ExtTreeMap.ofList entries compare = pairs := by
  have hne : pairs ≠ ∅ := Std.ExtTreeMap.isEmpty_eq_false_iff.mp (by decide +kernel)
  have haccepted : Accepted pairs := by
    intro key value hget
    have hmem := (getElem?_ofList_eq_some.mp hget).mem
    rw [List.mem_cons, List.mem_singleton, Prod.mk.injEq, Prod.mk.injEq] at hmem
    rcases hmem with ⟨rfl, rfl⟩ | ⟨rfl, rfl⟩
    · exact ⟨"prio=high", by decide +kernel, by decide +kernel⟩
    · exact ⟨"=", by decide +kernel, by decide +kernel⟩
  exact ⟨by decide +kernel, (display_labels_round_trip pairs hne haccepted).1⟩

end BeamLabels
