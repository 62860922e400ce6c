import Mathlib

/-! # Last wins — maps filled from lists

    Inserting the pairs of a list one after the other keeps, for every key, the
    value listed last. -/

namespace LastWins

variable {K V : Type}

/-- Inserting in a fold over a map is inserting the list of its pairs. -/
theorem foldl_insert [Ord K] [Std.TransOrd K] {K' V' : Type} [Ord K'] [Std.TransOrd K']
    (f : K → K') (g : V → V')
    (m : Std.ExtTreeMap K V compare) (m' : Std.ExtTreeMap K' V' compare) :
    m.foldl (fun acc k v => acc.insert (f k) (g v)) m' = m'.insertMany (m.toList.map (Prod.map f g)) := by
  rw [Std.ExtTreeMap.foldl_eq_foldl_toList]
  generalize m.toList = l
  induction l generalizing m' with
  | nil => rfl
  | cons e l ih =>
      rw [List.foldl_cons, ih, List.map_cons]
      exact Std.ExtTreeMap.insertMany_cons.symm

section Keys

variable [Ord K] [Std.TransOrd K] [Std.LawfulEqOrd K]

/-- The keys of a map are distinct. -/
theorem nodup_keys (m : Std.ExtTreeMap K V compare) : m.keys.Nodup :=
  Std.ExtTreeMap.distinct_keys.imp fun {_ _} hne heq =>
    hne (Std.LawfulEqOrd.compare_eq_iff_eq.mpr heq)

/-- So are the keys of its pairs. -/
theorem nodup_map_fst_toList (m : Std.ExtTreeMap K V compare) : (m.toList.map Prod.fst).Nodup := by
  rw [Std.ExtTreeMap.map_fst_toList_eq_keys]
  exact nodup_keys m

end Keys

/-! ## The last pair of a key -/

/-- The pair is the last of the list with its key. -/
def LastListed (l : List (K × V)) (e : K × V) : Prop :=
  ∃ before after, l = before ++ e :: after ∧ ∀ other ∈ after, other.1 ≠ e.1

theorem LastListed.mem {l : List (K × V)} {e : K × V} (h : LastListed l e) : e ∈ l := by
  obtain ⟨before, after, rfl, -⟩ := h
  exact List.mem_append_right _ List.mem_cons_self

variable [DecidableEq K]

/-- The value of a pair, if it is one of the key. -/
def valueAt (k : K) (e : K × V) : Option V := if e.1 = k then some e.2 else none

/-- A pair has this value for this key if it is the two. -/
theorem valueAt_eq_some {k : K} {e : K × V} {v : V} : valueAt k e = some v ↔ e = (k, v) := by
  rw [valueAt, Option.ite_none_right_eq_some, Option.some_inj, Prod.ext_iff]

/-- A pair of another key has no value for it. -/
theorem valueAt_eq_none {k : K} {e : K × V} : valueAt k e = none ↔ e.1 ≠ k := by
  rw [valueAt, ite_eq_right_iff]
  exact ⟨fun h heq => Option.some_ne_none _ (h heq), fun h heq => absurd heq h⟩

/-- The value listed last for a key. -/
def lastOf (l : List (K × V)) (k : K) : Option V := l.reverse.findSome? (valueAt k)

/-- A value in the second list comes before one in the first. -/
theorem lastOf_append (l l' : List (K × V)) (k : K) :
    lastOf (l ++ l') k = (lastOf l' k).or (lastOf l k) := by
  rw [lastOf, List.reverse_append, List.findSome?_append]
  rfl

/-- The first pair counts if no other has its key. -/
theorem lastOf_cons (e : K × V) (l : List (K × V)) (k : K) :
    lastOf (e :: l) k = (lastOf l k).or (valueAt k e) := by
  rw [← List.singleton_append, lastOf_append]
  cases h : valueAt k e <;> simp [lastOf, h]

/-- A key has no value if no pair has this key. -/
theorem lastOf_eq_none {l : List (K × V)} {k : K} : lastOf l k = none ↔ ∀ e ∈ l, e.1 ≠ k := by
  simp only [lastOf, List.findSome?_eq_none_iff, List.mem_reverse, valueAt_eq_none]

/-- The value of a key is the one of its last pair. -/
theorem lastOf_eq_some {l : List (K × V)} {k : K} {v : V} :
    lastOf l k = some v ↔ LastListed l (k, v) := by
  rw [lastOf, List.findSome?_eq_some_iff]
  constructor
  · rintro ⟨after, e, before, hrev, he, hafter⟩
    refine ⟨before.reverse, after.reverse, ?_, fun other hother => ?_⟩
    · rw [← valueAt_eq_some.mp he, ← List.reverse_reverse l, hrev]
      simp
    · exact valueAt_eq_none.mp (hafter other (List.mem_reverse.mp hother))
  · rintro ⟨before, after, rfl, hafter⟩
    refine ⟨after.reverse, (k, v), before.reverse, ?_, valueAt_eq_some.mpr rfl, fun other hother => ?_⟩
    · simp
    · exact valueAt_eq_none.mpr (hafter other (List.mem_reverse.mp hother))

/-- Every listed key has a last pair. -/
theorem exists_lastListed {l : List (K × V)} {e : K × V} (h : e ∈ l) :
    ∃ v, LastListed l (e.1, v) := by
  cases hlast : lastOf l e.1 with
  | none => exact absurd rfl (lastOf_eq_none.mp hlast e h)
  | some v => exact ⟨v, lastOf_eq_some.mp hlast⟩

/-- With one pair for each key, the last pair of a key is the only one. -/
theorem lastOf_of_mem {l : List (K × V)} (hkeys : (l.map Prod.fst).Nodup) {k : K} {v : V}
    (h : (k, v) ∈ l) : lastOf l k = some v := by
  obtain ⟨w, hw⟩ := exists_lastListed h
  obtain rfl : v = w := congrArg Prod.snd (List.inj_on_of_nodup_map hkeys h hw.mem rfl)
  exact lastOf_eq_some.mpr hw

/-- A renaming of the keys that keeps them apart keeps the last value. -/
theorem lastOf_map {K' V' : Type} [DecidableEq K'] {f : K → K'} (hf : Function.Injective f)
    (g : V → V') (l : List (K × V)) (k : K) :
    lastOf (l.map (Prod.map f g)) (f k) = (lastOf l k).map g := by
  have hvalue : valueAt (f k) ∘ Prod.map f g = Option.map g ∘ valueAt k := by
    funext e
    show valueAt (f k) (f e.1, g e.2) = (valueAt k e).map g
    by_cases he : e.1 = k
    · rw [valueAt, valueAt, if_pos he, if_pos (congrArg f he), Option.map_some]
    · rw [valueAt, valueAt, if_neg he, if_neg (fun h => he (hf h)), Option.map_none]
  rw [lastOf, lastOf, ← List.map_reverse, List.findSome?_map, hvalue, List.map_findSome?]

/-- Lists with the same last values still have them after a renaming. -/
theorem lastOf_map_congr {K' V' : Type} [DecidableEq K'] {f : K → K'} (hf : Function.Injective f)
    (g : V → V') {l l' : List (K × V)} (h : ∀ k, lastOf l k = lastOf l' k) (k' : K') :
    lastOf (l.map (Prod.map f g)) k' = lastOf (l'.map (Prod.map f g)) k' := by
  by_cases hk : ∃ k, f k = k'
  · obtain ⟨k, rfl⟩ := hk
    rw [lastOf_map hf, lastOf_map hf, h]
  · have hnone : ∀ l : List (K × V), lastOf (l.map (Prod.map f g)) k' = none := by
      intro l
      refine lastOf_eq_none.mpr fun e he heq => ?_
      obtain ⟨e, -, rfl⟩ := List.mem_map.mp he
      exact hk ⟨e.1, heq⟩
    rw [hnone, hnone]

/-! ## Filling a map -/

variable [Ord K] [Std.TransOrd K] [Std.LawfulEqOrd K]

/-- **The last pair wins**, and what the list does not name stays. -/
theorem getElem?_insertMany (m : Std.ExtTreeMap K V compare) (l : List (K × V)) (k : K) :
    (m.insertMany l)[k]? = (lastOf l k).or m[k]? := by
  induction l generalizing m with
  | nil => rfl
  | cons e l ih =>
      have hinsert : (m.insert e.1 e.2)[k]? = (valueAt k e).or m[k]? := by
        rw [Std.ExtTreeMap.getElem?_insert, valueAt]
        by_cases he : e.1 = k
        · rw [if_pos he, if_pos (Std.LawfulEqOrd.compare_eq_iff_eq.mpr he), Option.some_or]
        · rw [if_neg he, if_neg (fun h => he (Std.LawfulEqOrd.compare_eq_iff_eq.mp h)), Option.none_or]
      rw [Std.ExtTreeMap.insertMany_cons, ih, hinsert, lastOf_cons, Option.or_assoc]

/-- **A map made of a list** has the value listed last. -/
theorem getElem?_ofList (l : List (K × V)) (k : K) :
    (Std.ExtTreeMap.ofList l compare)[k]? = lastOf l k := by
  rw [Std.ExtTreeMap.ofList_eq_insertMany_empty, getElem?_insertMany, Std.ExtTreeMap.getElem?_empty,
    Option.or_none]

/-- The same, by the last pair of the key. -/
theorem getElem?_ofList_eq_some {l : List (K × V)} {k : K} {v : V} :
    (Std.ExtTreeMap.ofList l compare)[k]? = some v ↔ LastListed l (k, v) := by
  rw [getElem?_ofList, lastOf_eq_some]

/-- The entries of a map, one for each key, in any order fill it again. -/
theorem lastOf_perm_toList {l : List (K × V)} {m : Std.ExtTreeMap K V compare}
    (h : l.Perm m.toList) (k : K) : lastOf l k = m[k]? := by
  have hkeys : (l.map Prod.fst).Nodup := (h.map Prod.fst).nodup_iff.mpr (nodup_map_fst_toList m)
  cases hk : m[k]? with
  | none =>
      refine lastOf_eq_none.mpr fun e he heq => Option.some_ne_none e.2 ?_
      rw [← hk, ← heq]
      exact (Std.ExtTreeMap.mem_toList_iff_getElem?_eq_some.mp (h.subset he)).symm
  | some v =>
      exact lastOf_of_mem hkeys
        (h.symm.subset (Std.ExtTreeMap.mem_toList_iff_getElem?_eq_some.mpr hk))

/-- A map is made again from its pairs in any order. -/
theorem ofList_perm_toList {l : List (K × V)} {m : Std.ExtTreeMap K V compare}
    (h : l.Perm m.toList) : Std.ExtTreeMap.ofList l compare = m :=
  Std.ExtTreeMap.ext_getElem? fun k => (getElem?_ofList l k).trans (lastOf_perm_toList h k)

/-- Among the pairs of a map the value of a key is that of the map. -/
theorem lastOf_toList (m : Std.ExtTreeMap K V compare) (k : K) : lastOf m.toList k = m[k]? :=
  lastOf_perm_toList (List.Perm.refl _) k

end LastWins
