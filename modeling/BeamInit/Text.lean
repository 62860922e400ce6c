import Mathlib

/-! # Text — string operations over characters

    A string is the list of its characters.  Lengths and slices count the bytes
    of the UTF-8 encoding, and a slice fails where it would cut a character or
    leave the string. -/

namespace Text

/-! ## Characters -/

/-- The characters with the Unicode property `White_Space`. -/
def isWhitespace (c : Char) : Bool :=
  let n := c.val.toNat
  (9 ≤ n && n ≤ 13) || n == 0x20 || n == 0x85 || n == 0xA0 || n == 0x1680
    || (0x2000 ≤ n && n ≤ 0x200A) || n == 0x2028 || n == 0x2029 || n == 0x202F || n == 0x205F
    || n == 0x3000

/-- The characters of the Unicode category `Cc`. -/
def isControl (c : Char) : Bool :=
  let n := c.val.toNat
  n ≤ 0x1F || (0x7F ≤ n && n ≤ 0x9F)

def trimStart (s : List Char) : List Char := s.dropWhile isWhitespace

/-- Blanks at the start are trimmed away whole. -/
theorem trimStart_append {blanks s : List Char} (h : ∀ c ∈ blanks, isWhitespace c = true) :
    trimStart (blanks ++ s) = trimStart s :=
  List.dropWhile_append_of_pos h

/-- What starts with another character is left as it is. -/
theorem trimStart_cons {c : Char} {s : List Char} (h : isWhitespace c = false) :
    trimStart (c :: s) = c :: s :=
  List.dropWhile_cons_of_neg (by rw [h]; exact Bool.false_ne_true)

/-- Trimming ends at the first character that is no blank. -/
theorem trimStart_append_cons (s t : List Char) {c : Char} (h : isWhitespace c = false) :
    trimStart (s ++ c :: t) = trimStart s ++ c :: t := by
  induction s with
  | nil => exact trimStart_cons h
  | cons d s ih =>
      cases hd : isWhitespace d with
      | true =>
          have hpos : ∀ l, trimStart (d :: l) = trimStart l := fun l => List.dropWhile_cons_of_pos hd
          rw [List.cons_append, hpos, hpos, ih]
      | false => rw [List.cons_append, trimStart_cons hd, trimStart_cons hd, List.cons_append]

/-- Trimming leaves a suffix. -/
theorem trimStart_suffix (s : List Char) : trimStart s <:+ s := List.dropWhile_suffix _

/-! ## Splitting at the first separator -/

/-- What stands before and after the first `sep`. -/
def splitOnce (sep : Char) : List Char → Option (List Char × List Char)
  | [] => none
  | c :: s => if c = sep then some ([], s) else (splitOnce sep s).map (fun (k, v) => (c :: k, v))

/-- `split_once` cuts at the first separator. -/
theorem splitOnce_append {sep : Char} {k : List Char} (h : sep ∉ k) (v : List Char) :
    splitOnce sep (k ++ sep :: v) = some (k, v) := by
  induction k with
  | nil => rw [List.nil_append, splitOnce, if_pos rfl]
  | cons c k ih =>
      rw [List.mem_cons, not_or] at h
      rw [List.cons_append, splitOnce, if_neg (Ne.symm h.1), ih h.2, Option.map_some]

/-- `split_once` fails only where there is no separator. -/
theorem splitOnce_eq_none {sep : Char} {s : List Char} : splitOnce sep s = none ↔ sep ∉ s := by
  induction s with
  | nil => exact iff_of_true rfl List.not_mem_nil
  | cons c s ih =>
      rw [splitOnce, List.mem_cons, not_or]
      by_cases hc : c = sep
      · rw [if_pos hc]
        exact iff_of_false (Option.some_ne_none _) (fun h => h.1 hc.symm)
      · rw [if_neg hc, Option.map_eq_none_iff, ih]
        exact ⟨fun h => ⟨Ne.symm hc, h⟩, And.right⟩

/-- `split_once` gives the two sides of the first separator, and the text is the two joined
    by it. -/
theorem splitOnce_eq_some {sep : Char} {s k v : List Char} :
    splitOnce sep s = some (k, v) ↔ s = k ++ sep :: v ∧ sep ∉ k := by
  constructor
  · intro h
    induction s generalizing k with
    | nil => cases h
    | cons c s ih =>
        rw [splitOnce] at h
        by_cases hc : c = sep
        · rw [if_pos hc] at h
          obtain ⟨rfl, rfl⟩ := Prod.mk.inj (Option.some.inj h)
          exact ⟨by rw [hc, List.nil_append], List.not_mem_nil⟩
        · rw [if_neg hc] at h
          obtain ⟨⟨k', v'⟩, hsplit, heq⟩ := Option.map_eq_some_iff.mp h
          obtain ⟨rfl, rfl⟩ := Prod.mk.inj heq
          obtain ⟨rfl, hnot⟩ := ih hsplit
          exact ⟨rfl, fun hmem => (List.mem_cons.mp hmem).elim (fun h => hc h.symm) hnot⟩
  · rintro ⟨rfl, hnot⟩
    exact splitOnce_append hnot v

/-! ## Bytes and slices -/

/-- The length of the UTF-8 encoding. -/
def byteLen (s : List Char) : Nat := (s.map Char.utf8Size).sum

@[simp] theorem byteLen_nil : byteLen [] = 0 := rfl

@[simp] theorem byteLen_cons (c : Char) (s : List Char) :
    byteLen (c :: s) = c.utf8Size + byteLen s := List.sum_cons

@[simp] theorem byteLen_append (s t : List Char) : byteLen (s ++ t) = byteLen s + byteLen t := by
  rw [byteLen, List.map_append, List.sum_append]
  rfl

/-- Every character takes a byte at least. -/
theorem length_le_byteLen {v : List Char} : v.length ≤ byteLen v := by
  induction v with
  | nil => exact Nat.le_refl 0
  | cons c v ih =>
      have := c.utf8Size_pos
      rw [List.length_cons, byteLen_cons]
      omega

/-- A string cut at a byte offset, if that is a boundary of its characters. -/
def splitAtByte : List Char → Nat → Option (List Char × List Char)
  | [], n => if n = 0 then some ([], []) else none
  | c :: s, n =>
      if n = 0 then some ([], c :: s)
      else if n < c.utf8Size then none
      else (splitAtByte s (n - c.utf8Size)).map (fun (front, back) => (c :: front, back))

/-- Cutting at the length in bytes of a prefix gives this prefix and the rest. -/
theorem splitAtByte_append (s t : List Char) :
    splitAtByte (s ++ t) (byteLen s) = some (s, t) := by
  induction s with
  | nil => cases t <;> rfl
  | cons c s ih =>
      have hpos := c.utf8Size_pos
      rw [List.cons_append, splitAtByte, byteLen_cons, if_neg (by omega), if_neg (by omega),
        Nat.add_sub_cancel_left, ih, Option.map_some]

/-- `&s[i..j]`. -/
def slice (s : List Char) (i j : Nat) : Option (List Char) :=
  (splitAtByte s j).bind (fun halves => (splitAtByte halves.1 i).map Prod.snd)

/-- A slice between the bounds of a part is this part. -/
theorem slice_append (s t u : List Char) :
    slice (s ++ t ++ u) (byteLen s) (byteLen s + byteLen t) = some t := by
  rw [slice, ← byteLen_append, splitAtByte_append, Option.bind_some, splitAtByte_append,
    Option.map_some]

/-! ## Lines -/

/-- The line without a carriage return at its end. -/
def stripCr (line : List Char) : List Char :=
  if line.getLast? = some '\r' then line.dropLast else line

/-- Only a carriage return is stripped. -/
theorem stripCr_append (s : List Char) {c : Char} (h : c ≠ '\r') : stripCr (s ++ [c]) = s ++ [c] := by
  rw [stripCr, List.getLast?_concat, if_neg (fun heq => h (Option.some.inj heq))]

/-- `str::lines`: the pieces between newlines, without a carriage return before
    the newline; a last piece that no newline ends is kept as it is, if it is
    not empty. -/
def lines (s : List Char) : List (List Char) :=
  (s.splitOn '\n').dropLast.map stripCr ++ (s.splitOn '\n').getLast?.toList.filter (· ≠ [])

/-- `lines` splits at the first line feed, which belongs to neither line. -/
theorem lines_append {l : List Char} (h : '\n' ∉ l) (s : List Char) :
    lines (l ++ '\n' :: s) = stripCr l :: lines s := by
  have hsplit : (l ++ '\n' :: s).splitOn '\n' = l :: s.splitOn '\n' :=
    List.splitOn_append_cons_self_of_not_mem h s
  obtain ⟨piece, pieces, hpieces⟩ := List.exists_cons_of_ne_nil (List.splitOn_ne_nil '\n' s)
  rw [lines, lines, hsplit, hpieces, List.dropLast_cons_cons, List.getLast?_cons_cons,
    List.map_cons, List.cons_append]

/-- Without a line feed there is one line, or none if there is no text. -/
theorem lines_last {l : List Char} (h : '\n' ∉ l) : lines l = [l].filter (· ≠ []) := by
  rw [lines, List.splitOn_eq_singleton h]
  rfl

end Text
