import Mathlib

/-! # Ledgers — who holds what

    A table gives each name at most one item; a list says which items are
    outstanding, and every item has a key.  The table *accounts for* the list
    when the items held are exactly the outstanding ones and no key is held
    twice.  Issuing an item with a fresh key and settling a held one keep the
    accounts. -/

namespace Ledger

variable {N V K : Type} {key : V → K} {items : List V} {holder : N → Option V}
variable {name : N} {item : V}

/-- The holders account for the outstanding items. -/
structure Accounts (key : V → K) (items : List V) (holder : N → Option V) : Prop where
  held : ∀ item, item ∈ items ↔ ∃ name, holder name = some item
  unique : ∀ {name name' item item'}, holder name = some item → holder name' = some item' →
    key item = key item' → name = name'

namespace Accounts

theorem empty : Accounts key [] (fun _ : N => none) where
  held _ := ⟨fun h => absurd h List.not_mem_nil, fun ⟨_, h⟩ => nomatch h⟩
  unique h := nomatch h

/-- A held key is held by exactly one name. -/
theorem outstanding_iff (h : Accounts key items holder) (k : K) :
    (∃ item ∈ items, key item = k) ↔ ∃! name, ∃ item, holder name = some item ∧ key item = k := by
  constructor
  · rintro ⟨item, hmem, rfl⟩
    obtain ⟨name, hname⟩ := (h.held item).mp hmem
    exact ⟨name, ⟨item, hname, rfl⟩, fun _ ⟨_, hother, hkey⟩ => h.unique hother hname hkey⟩
  · rintro ⟨name, ⟨item, hname, hkey⟩, -⟩
    exact ⟨item, (h.held item).mpr ⟨name, hname⟩, hkey⟩

/-- Dropping a key nobody holds changes nothing. -/
theorem filter_foreign [DecidableEq K] (h : Accounts key items holder) {k : K}
    (hforeign : ∀ name item, holder name = some item → key item ≠ k) :
    items.filter (fun item => key item ≠ k) = items := by
  refine List.filter_eq_self.mpr fun item hmem => ?_
  obtain ⟨name, hname⟩ := (h.held item).mp hmem
  exact decide_eq_true (hforeign name item hname)

variable [DecidableEq N]

/-- A name without an item takes one whose key is fresh. -/
theorem issue (h : Accounts key items holder) (hfree : holder name = none)
    (hfresh : ∀ other ∈ items, key other ≠ key item) :
    Accounts key (item :: items) (Function.update holder name (some item)) := by
  have hne : ∀ {other v}, holder other = some v → other ≠ name :=
    fun hv heq => by rw [heq, hfree] at hv; exact nomatch hv
  -- every entry of the new table is the new item or an old entry
  have hcases : ∀ {other v}, Function.update holder name (some item) other = some v →
      (other = name ∧ v = item) ∨ holder other = some v := by
    intro other v hv
    by_cases heq : other = name
    · rw [heq, Function.update_self] at hv
      exact Or.inl ⟨heq, (Option.some.inj hv).symm⟩
    · rw [Function.update_of_ne heq] at hv
      exact Or.inr hv
  constructor
  · intro v
    rw [List.mem_cons, h.held]
    constructor
    · rintro (rfl | ⟨other, hother⟩)
      · exact ⟨name, Function.update_self ..⟩
      · exact ⟨other, by rw [Function.update_of_ne (hne hother)]; exact hother⟩
    · rintro ⟨other, hother⟩
      rcases hcases hother with ⟨-, rfl⟩ | hold
      · exact Or.inl rfl
      · exact Or.inr ⟨other, hold⟩
  · intro n n' v v' hn hn' hkey
    have hfresh' : ∀ {other v}, holder other = some v → key v ≠ key item :=
      fun hv => hfresh _ ((h.held _).mpr ⟨_, hv⟩)
    rcases hcases hn with ⟨rfl, rfl⟩ | hold <;> rcases hcases hn' with ⟨rfl, rfl⟩ | hold'
    · rfl
    · exact absurd hkey.symm (hfresh' hold')
    · exact absurd hkey (hfresh' hold)
    · exact h.unique hold hold' hkey

/-- A held item is given back: its key is struck off the list. -/
theorem settle [DecidableEq K] (h : Accounts key items holder) (hheld : holder name = some item) :
    Accounts key (items.filter (fun other => key other ≠ key item))
      (Function.update holder name none) := by
  have hcases : ∀ {other v}, Function.update holder name none other = some v ↔
      other ≠ name ∧ holder other = some v := by
    intro other v
    by_cases heq : other = name
    · rw [heq, Function.update_self]
      exact ⟨nofun, fun hv => absurd rfl hv.1⟩
    · rw [Function.update_of_ne heq]
      exact ⟨fun hv => ⟨heq, hv⟩, fun hv => hv.2⟩
  constructor
  · intro v
    rw [List.mem_filter, decide_eq_true_iff, h.held]
    constructor
    · rintro ⟨⟨other, hother⟩, hkey⟩
      refine ⟨other, hcases.mpr ⟨fun heq => hkey ?_, hother⟩⟩
      rw [heq, hheld] at hother
      rw [Option.some.inj hother]
    · rintro ⟨other, hother⟩
      obtain ⟨hne, hold⟩ := hcases.mp hother
      exact ⟨⟨other, hold⟩, fun hkey => hne (h.unique hold hheld hkey)⟩
  · intro n n' v v' hn hn' hkey
    exact h.unique (hcases.mp hn).2 (hcases.mp hn').2 hkey

end Accounts

end Ledger
