import Mathlib

/-! # Lexicographic order — prefixes form blocks, and UTF-8 keeps the order

    In a sorted list of words the extensions of one word stand together, from
    the first word that is not below it on.  A code that compares like the
    letters it stands for, whatever follows, keeps the order of the words; the
    encoding of characters as UTF-8 is one. -/

namespace LexOrder

/-! ## Extensions of a word -/

section Prefix

variable {α : Type} [LT α]

theorem not_lt_of_isPrefix [Std.Irrefl (α := α) (· < ·)] {p w : List α} (h : p <+: w) : ¬ w < p := by
  obtain ⟨rest, rfl⟩ := h
  induction p with
  | nil => exact List.not_lt_nil _
  | cons a p ih =>
      rw [List.cons_append, List.cons_lt_cons_iff]
      rintro (hlt | ⟨-, hlt⟩)
      · exact Std.Irrefl.irrefl a hlt
      · exact ih hlt

/-- What lies between a word and one of its extensions extends it too. -/
theorem prefix_of_between [Std.Trichotomous (α := α) (· < ·)] {p v w : List α} (hv : ¬ v < p)
    (hw : ¬ w < v) (h : p <+: w) : p <+: v := by
  induction p generalizing v w with
  | nil => exact List.nil_prefix
  | cons a p ih =>
      obtain ⟨rest, rfl⟩ := h
      cases v with
      | nil => exact absurd (List.nil_lt_cons a p) hv
      | cons b v =>
          rw [List.cons_lt_cons_iff, not_or, not_and] at hv
          rw [List.cons_append, List.cons_lt_cons_iff, not_or, not_and] at hw
          obtain rfl : a = b := Std.Trichotomous.trichotomous a b hw.1 hv.1
          exact (List.prefix_cons_inj a).mpr (ih (hv.2 rfl) (hw.2 rfl) ⟨rest, rfl⟩)

/-- In a list where what follows a failure fails, the first part is all there is. -/
theorem takeWhile_eq_filter {β : Type} {P : β → Bool} {l : List β}
    (h : l.Pairwise fun x y => P y = true → P x = true) : l.takeWhile P = l.filter P := by
  induction l with
  | nil => rfl
  | cons a l ih =>
      obtain ⟨hhead, htail⟩ := List.pairwise_cons.mp h
      cases ha : P a with
      | true => rw [List.takeWhile_cons_of_pos ha, List.filter_cons_of_pos ha, ih htail]
      | false =>
          have hnone : l.filter P = [] := by
            rw [List.filter_eq_nil_iff]
            intro b hb hPb
            exact Bool.false_ne_true (ha.symm.trans (hhead b hb hPb))
          have hneg : ¬ P a = true := by rw [ha]; exact Bool.false_ne_true
          rw [List.takeWhile_cons_of_neg hneg, List.filter_cons_of_neg hneg, hnone]

/-- **The block of a prefix**: from the first word not below `p` on, the words of a
    sorted list that come before one that does not extend `p` are those that do. -/
theorem block_eq_filter [DecidableEq α] [DecidableLT α] [Std.Irrefl (α := α) (· < ·)]
    [Std.Trichotomous (α := α) (· < ·)] {β : Type} (word : β → List α) (p : List α) {l : List β}
    (h : l.Pairwise fun x y => ¬ word y < word x) :
    (l.filter fun x => decide (¬ word x < p)).takeWhile (fun x => decide (p <+: word x))
      = l.filter fun x => decide (p <+: word x) := by
  rw [takeWhile_eq_filter, List.filter_filter]
  · refine List.filter_congr fun x _ => ?_
    by_cases hx : p <+: word x
    · rw [decide_eq_true hx, decide_eq_true (not_lt_of_isPrefix hx), Bool.true_and]
    · rw [decide_eq_false hx, Bool.false_and]
  · refine (h.filter _).imp_of_mem fun {x y} hx _ hxy hy => ?_
    have hfrom := of_decide_eq_true (List.mem_filter.mp hx).2
    exact decide_eq_true (prefix_of_between hfrom hxy (of_decide_eq_true hy))

end Prefix

/-! ## Codes that keep the order -/

section Code

variable {α β : Type} [LinearOrder α] [LT β] [Std.Asymm (α := β) (· < ·)]

/-- The codes of two letters compare like the letters, whatever follows them. -/
def KeepsOrder (code : α → List β) : Prop :=
  (∀ a, code a ≠ []) ∧ ∀ a b, a < b → ∀ s t, code a ++ s < code b ++ t

theorem append_lt_append_iff {u s t : List β} : u ++ s < u ++ t ↔ s < t := by
  induction u with
  | nil => rfl
  | cons a u ih =>
      rw [List.cons_append, List.cons_append, List.cons_lt_cons_iff, ih]
      exact ⟨fun h => h.elim (fun hlt => absurd hlt (Std.Irrefl.irrefl a)) And.right,
        fun h => .inr ⟨rfl, h⟩⟩

theorem KeepsOrder.flatMap_lt {code : α → List β} (h : KeepsOrder code) {s t : List α}
    (hlt : s < t) : s.flatMap code < t.flatMap code := by
  induction s generalizing t with
  | nil =>
      cases t with
      | nil => exact absurd hlt (lt_irrefl _)
      | cons b t =>
          obtain ⟨c, rest, hcode⟩ := List.exists_cons_of_ne_nil (h.1 b)
          rw [List.flatMap_nil, List.flatMap_cons, hcode]
          exact List.nil_lt_cons _ _
  | cons a s ih =>
      cases t with
      | nil => exact absurd hlt (List.not_lt_nil _)
      | cons b t =>
          rw [List.flatMap_cons, List.flatMap_cons]
          rcases List.cons_lt_cons_iff.mp hlt with hab | ⟨rfl, hst⟩
          · exact h.2 a b hab _ _
          · exact append_lt_append_iff.mpr (ih hst)

/-- **The order of the words is the order of their codes.** -/
theorem KeepsOrder.flatMap_lt_iff {code : α → List β} (h : KeepsOrder code) {s t : List α} :
    s.flatMap code < t.flatMap code ↔ s < t := by
  refine ⟨fun hlt => ?_, h.flatMap_lt⟩
  rcases lt_trichotomy s t with hst | rfl | hts
  · exact hst
  · exact absurd hlt (Std.Irrefl.irrefl _)
  · exact absurd hlt (Std.Asymm.asymm _ _ (h.flatMap_lt hts))

end Code

/-! ## UTF-8 -/

theorem ofNat_lt_iff {a b : Nat} : UInt8.ofNat a < UInt8.ofNat b ↔ a % 256 < b % 256 := by
  rw [UInt8.lt_iff_toNat_lt, UInt8.toNat_ofNat', UInt8.toNat_ofNat']

theorem ofNat_eq_iff {a b : Nat} : UInt8.ofNat a = UInt8.ofNat b ↔ a % 256 = b % 256 := by
  rw [← UInt8.toNat_inj, UInt8.toNat_ofNat', UInt8.toNat_ofNat']

/-- A number below another has the smaller digit where they first differ. -/
theorem digits_lt {v w : Nat} (h : v < w) :
    v / 262144 < w / 262144 ∨ v / 262144 = w / 262144 ∧
      (v / 4096 % 64 < w / 4096 % 64 ∨ v / 4096 % 64 = w / 4096 % 64 ∧
        (v / 64 % 64 < w / 64 % 64 ∨ v / 64 % 64 = w / 64 % 64 ∧ v % 64 < w % 64)) := by
  have hv : v = v / 262144 * 262144 + v / 4096 % 64 * 4096 + v / 64 % 64 * 64 + v % 64 := by omega
  have hw : w = w / 262144 * 262144 + w / 4096 % 64 * 4096 + w / 64 % 64 * 64 + w % 64 := by omega
  have hv₂ : v / 4096 % 64 < 64 := Nat.mod_lt _ (by decide)
  have hw₂ : w / 4096 % 64 < 64 := Nat.mod_lt _ (by decide)
  have hv₃ : v / 64 % 64 < 64 := Nat.mod_lt _ (by decide)
  have hw₃ : w / 64 % 64 < 64 := Nat.mod_lt _ (by decide)
  have hv₄ : v % 64 < 64 := Nat.mod_lt _ (by decide)
  have hw₄ : w % 64 < 64 := Nat.mod_lt _ (by decide)
  generalize v / 262144 = v₁, v / 4096 % 64 = v₂, v / 64 % 64 = v₃, v % 64 = v₄ at *
  generalize w / 262144 = w₁, w / 4096 % 64 = w₂, w / 64 % 64 = w₃, w % 64 = w₄ at *
  omega

/-- UTF-8 compares like the characters: the first byte grows with the length of the
    code, and the digits of one length are those of the number. -/
theorem utf8_keepsOrder : KeepsOrder String.utf8EncodeChar := by
  refine ⟨fun c => String.utf8EncodeChar_ne_nil, fun c d hlt s t => ?_⟩
  have hval : c.val.toNat < d.val.toNat := hlt
  have hd : d.val.toNat < 1114112 := by
    have := d.valid
    simp only [UInt32.isValidChar, Nat.isValidChar] at this
    omega
  have hdigits := digits_lt hval
  have hlead : ∀ n, n < 1114112 → (n / 262144 % 8 + 240) % 256 = n / 262144 + 240 := by omega
  have hdigit : ∀ n, (n % 64 + 128) % 256 = n % 64 + 128 := by omega
  unfold String.utf8EncodeChar
  generalize c.val.toNat = v at *
  generalize d.val.toNat = w at *
  dsimp only
  split_ifs
  all_goals
    simp only [List.cons_append, List.nil_append, List.cons_lt_cons_iff, ofNat_lt_iff, ofNat_eq_iff,
      hdigit, hlead _ hd, hlead _ (hval.trans hd)]
    omega

end LexOrder
