import Mathlib

/-! # URL paths — parsing, percent-encoding and percent-decoding

    The path of a URL, over bytes: what a parser of the URL standard makes of
    the text after the authority, and what a percent-decoder makes of a segment
    again.  Encoding is invisible to decoding, so the two are inverse exactly on
    the segments that hold no escape of their own; and a parsed segment is never
    longer than the text it comes from. -/

namespace UrlPath

abbrev Bytes := List UInt8

instance : LawfulBEq Bytes := inferInstance

/-! ## Percent-decoding -/

/-- The byte `%`. -/
abbrev percent : UInt8 := 37

def hexValue (b : UInt8) : Option UInt8 :=
  if 48 ≤ b ∧ b ≤ 57 then some (b - 48)
  else if 65 ≤ b ∧ b ≤ 70 then some (b - 55)
  else if 97 ≤ b ∧ b ≤ 102 then some (b - 87)
  else none

/-- The upper-case digit of a value below 16. -/
def hexDigit (n : UInt8) : UInt8 := if n < 10 then 48 + n else 55 + n

/-- The byte three bytes stand for, if they are an escape. -/
def escape (b high low : UInt8) : Option UInt8 :=
  if b = percent then
    match hexValue high, hexValue low with
    | some h, some l => some (16 * h + l)
    | _, _ => none
  else none

/-- An incomplete escape is kept as it is. -/
def percentDecode : Bytes → Bytes
  | b :: high :: low :: rest =>
      match escape b high low with
      | some value => value :: percentDecode rest
      | none => b :: percentDecode (high :: low :: rest)
  | short => short

def hasEscape : Bytes → Bool
  | b :: high :: low :: rest => (escape b high low).isSome || hasEscape (high :: low :: rest)
  | _ => false

/-- An escape is decoded. -/
theorem percentDecode_some {b high low value : UInt8} (rest : Bytes)
    (h : escape b high low = some value) :
    percentDecode (b :: high :: low :: rest) = value :: percentDecode rest := by
  rw [percentDecode, h]

/-- What is no escape is kept. -/
theorem percentDecode_none {b high low : UInt8} (rest : Bytes) (h : escape b high low = none) :
    percentDecode (b :: high :: low :: rest) = b :: percentDecode (high :: low :: rest) := by
  rw [percentDecode, h]

/-- A byte no escape starts with is kept. -/
theorem percentDecode_cons {b : UInt8} {rest : Bytes}
    (h : ∀ high low, [high, low] <+: rest → escape b high low = none) :
    percentDecode (b :: rest) = b :: percentDecode rest := by
  match rest with
  | [] => rfl
  | [_] => rfl
  | high :: low :: tail => exact percentDecode_none tail (h high low ⟨tail, rfl⟩)

/-- Decoding makes nothing longer. -/
theorem percentDecode_length (s : Bytes) : (percentDecode s).length ≤ s.length := by
  induction s using percentDecode.induct with
  | case1 b high low rest value h ih =>
      rw [percentDecode_some rest h]
      simp only [List.length_cons]
      omega
  | case2 b high low rest h ih =>
      rw [percentDecode_none rest h]
      simp only [List.length_cons] at ih ⊢
      omega
  | case3 short h => rw [percentDecode]; exact h

/-- **Decoding changes nothing exactly when there is no escape.** -/
theorem percentDecode_eq_iff (s : Bytes) : percentDecode s = s ↔ hasEscape s = false := by
  induction s using percentDecode.induct with
  | case1 b high low rest value h ih =>
      rw [percentDecode_some rest h, hasEscape, h]
      refine ⟨fun heq => ?_, fun hno => nomatch hno⟩
      have hlen := congrArg List.length heq
      have hle := percentDecode_length rest
      simp only [List.length_cons] at hlen
      omega
  | case2 b high low rest h ih =>
      rw [percentDecode_none rest h, hasEscape, h, List.cons.injEq, ih]
      simp
  | case3 short h =>
      rw [percentDecode, hasEscape]
      · simp
      · exact h
      · exact h

/-! ## Percent-encoding -/

/-- The bytes every encode set of a URL leaves alone: letters, digits, `%`, `-`, `.`, `=`, `_`. -/
def isKept (b : UInt8) : Bool :=
  (48 ≤ b && b ≤ 57) || (65 ≤ b && b ≤ 90) || (97 ≤ b && b ≤ 122)
    || [37, 45, 46, 61, 95].contains b

/-- A percent-encode set. -/
structure EncodeSet where
  encodes : UInt8 → Bool
  keeps : ∀ b, isKept b = true → encodes b = false

/-- The bytes outside printable ASCII. -/
def isUnprintable (b : UInt8) : Bool := b < 32 || 126 < b

theorem keeps_of_forall {encodes : UInt8 → Bool}
    (h : ∀ n : Fin 256, isKept (UInt8.ofFin n) = true → encodes (UInt8.ofFin n) = false) (b : UInt8)
    (hkept : isKept b = true) : encodes b = false := h b.toFin hkept

/-- The path percent-encode set. -/
def pathSet : EncodeSet where
  encodes b := isUnprintable b || [32, 34, 35, 60, 62, 63, 94, 96, 123, 125].contains b
  keeps := keeps_of_forall (by decide +kernel)

/-- The special-query percent-encode set. -/
def querySet : EncodeSet where
  encodes b := isUnprintable b || [32, 34, 35, 39, 60, 62].contains b
  keeps := keeps_of_forall (by decide +kernel)

variable (S : EncodeSet)

def encodeByte (b : UInt8) : Bytes :=
  if S.encodes b then [percent, hexDigit (b / 16), hexDigit (b % 16)] else [b]

def percentEncode (s : Bytes) : Bytes := s.flatMap (encodeByte S)

/-- The two digits of a byte are an escape for this byte. -/
theorem escape_hexDigit (b : UInt8) :
    escape percent (hexDigit (b / 16)) (hexDigit (b % 16)) = some b := by
  have h : ∀ n : Fin 256, escape percent (hexDigit (UInt8.ofFin n / 16))
      (hexDigit (UInt8.ofFin n % 16)) = some (UInt8.ofFin n) := by decide +kernel
  exact h b.toFin

/-- `%` is not a digit, so no escape has it second or third. -/
theorem escape_percent (b x : UInt8) : escape b percent x = none ∧ escape b x percent = none := by
  have hvalue : hexValue percent = none := by decide
  constructor
  · rw [escape, hvalue]
    split <;> rfl
  · rw [escape, hvalue]
    split
    · cases hexValue x <;> rfl
    · rfl

/-- The hexadecimal digits are kept by every encode set. -/
theorem isKept_of_hexValue {b value : UInt8} (h : hexValue b = some value) : isKept b = true := by
  have hdigits : ∀ n : Fin 256, (hexValue (UInt8.ofFin n)).isSome = true →
      isKept (UInt8.ofFin n) = true := by decide +kernel
  exact hdigits b.toFin (by show (hexValue b).isSome = true; rw [h]; rfl)

@[simp] theorem percentEncode_nil : percentEncode S [] = [] := rfl

/-- A byte of the set is escaped. -/
theorem percentEncode_cons_pos {b : UInt8} (h : S.encodes b = true) (rest : Bytes) :
    percentEncode S (b :: rest)
      = percent :: hexDigit (b / 16) :: hexDigit (b % 16) :: percentEncode S rest := by
  rw [percentEncode, List.flatMap_cons, encodeByte, if_pos h]
  rfl

/-- A byte outside the set is kept. -/
theorem percentEncode_cons_neg {b : UInt8} (h : S.encodes b = false) (rest : Bytes) :
    percentEncode S (b :: rest) = b :: percentEncode S rest := by
  rw [percentEncode, List.flatMap_cons, encodeByte, if_neg (by rw [h]; exact Bool.false_ne_true)]
  rfl

/-- Bytes that are all kept are not changed. -/
theorem percentEncode_of_isKept {s : Bytes} (h : ∀ b ∈ s, isKept b = true) :
    percentEncode S s = s := by
  induction s with
  | nil => rfl
  | cons b rest ih =>
      rw [percentEncode_cons_neg S (S.keeps b (h b (by simp))),
        ih (fun c hc => h c (by simp [hc]))]

/-- Encoding what follows a byte does not turn it into an escape. -/
theorem escape_percentEncode {b : UInt8} {rest : Bytes}
    (h : ∀ high low, [high, low] <+: rest → escape b high low = none) {x y : UInt8}
    (hxy : [x, y] <+: percentEncode S rest) : escape b x y = none := by
  match rest with
  | [] => exact absurd hxy.length_le (by simp)
  | high :: tail =>
      cases hhigh : S.encodes high with
      | true =>
          rw [percentEncode_cons_pos S hhigh, List.cons_prefix_cons] at hxy
          rw [hxy.1]
          exact (escape_percent b y).1
      | false =>
          rw [percentEncode_cons_neg S hhigh, List.cons_prefix_cons] at hxy
          obtain ⟨rfl, hy⟩ := hxy
          match tail with
          | [] => exact absurd hy.length_le (by simp)
          | low :: tail =>
              cases hlow : S.encodes low with
              | true =>
                  rw [percentEncode_cons_pos S hlow, List.cons_prefix_cons] at hy
                  rw [hy.1]
                  exact (escape_percent b x).2
              | false =>
                  rw [percentEncode_cons_neg S hlow, List.cons_prefix_cons] at hy
                  rw [hy.1]
                  exact h x low ⟨tail, rfl⟩

/-- A byte that does not begin an escape comes back first. -/
theorem percentDecode_percentEncode_cons {b : UInt8} {rest : Bytes}
    (h : ∀ high low, [high, low] <+: rest → escape b high low = none) :
    percentDecode (percentEncode S (b :: rest)) = b :: percentDecode (percentEncode S rest) := by
  cases hb : S.encodes b with
  | true => rw [percentEncode_cons_pos S hb, percentDecode_some _ (escape_hexDigit b)]
  | false =>
      rw [percentEncode_cons_neg S hb]
      exact percentDecode_cons (fun _ _ hxy => escape_percentEncode S h hxy)

/-- **Encoding is invisible to decoding.** -/
theorem percentDecode_percentEncode (s : Bytes) :
    percentDecode (percentEncode S s) = percentDecode s := by
  induction s using percentDecode.induct with
  | case1 b high low rest value h ih =>
      -- An escape is made of kept bytes, so it is still there after encoding.
      obtain ⟨hb, vh, hh, vl, hl⟩ : b = percent ∧ ∃ vh, hexValue high = some vh ∧
          ∃ vl, hexValue low = some vl := by
        rw [escape] at h
        split at h
        · next hb =>
          split at h
          · next vh vl hh hl => exact ⟨hb, vh, hh, vl, hl⟩
          · exact nomatch h
        · exact nomatch h
      rw [percentEncode_cons_neg S (S.keeps b (by rw [hb]; decide)),
        percentEncode_cons_neg S (S.keeps high (isKept_of_hexValue hh)),
        percentEncode_cons_neg S (S.keeps low (isKept_of_hexValue hl)),
        percentDecode_some _ h, percentDecode_some _ h, ih]
  | case2 b high low rest h ih =>
      rw [percentDecode_none rest h, ← ih]
      refine percentDecode_percentEncode_cons S (fun x y hxy => ?_)
      obtain ⟨rfl, hy⟩ := List.cons_prefix_cons.mp hxy
      obtain ⟨rfl, -⟩ := List.cons_prefix_cons.mp hy
      exact h
  | case3 short hshort =>
      match short with
      | [] => rfl
      | [b] =>
          rw [percentDecode_percentEncode_cons S (fun _ _ h => absurd h.length_le (by simp))]
          rfl
      | [b, c] =>
          rw [percentDecode_percentEncode_cons S (fun _ _ h => absurd h.length_le (by simp)),
            percentDecode_percentEncode_cons S (fun _ _ h => absurd h.length_le (by simp))]
          rfl
      | b :: high :: low :: rest => exact absurd rfl (hshort b high low rest)

/-! ## Dot segments -/

def singleDots : List Bytes := [[46], [37, 50, 101], [37, 50, 69]]

def doubleDots : List Bytes :=
  [[46, 46], [46, 37, 50, 101], [46, 37, 50, 69], [37, 50, 101, 46], [37, 50, 69, 46],
    [37, 50, 101, 37, 50, 101], [37, 50, 101, 37, 50, 69], [37, 50, 69, 37, 50, 101],
    [37, 50, 69, 37, 50, 69]]

/-- The segments of a path, dots removed; a dot at the end leaves an empty segment. -/
def removeDots (done : List Bytes) : List Bytes → List Bytes
  | [] => done
  | [last] =>
      if last ∈ doubleDots then done.dropLast ++ [[]]
      else if last ∈ singleDots then done ++ [[]]
      else done ++ [last]
  | segment :: rest =>
      if segment ∈ doubleDots then removeDots done.dropLast rest
      else if segment ∈ singleDots then removeDots done rest
      else removeDots (done ++ [segment]) rest

/-- A dot segment decodes to one or two dots. -/
theorem percentDecode_dots {segment : Bytes} (h : segment ∈ singleDots ∨ segment ∈ doubleDots) :
    percentDecode segment = [46] ∨ percentDecode segment = [46, 46] := by
  rcases h with h | h
  · have hall : ∀ s ∈ singleDots, percentDecode s = [46] := by decide +kernel
    exact .inl (hall segment h)
  · have hall : ∀ s ∈ doubleDots, percentDecode s = [46, 46] := by decide +kernel
    exact .inr (hall segment h)

/-- Without dot segments nothing is removed. -/
theorem removeDots_of_not_mem {segments : List Bytes}
    (h : ∀ s ∈ segments, s ∉ singleDots ∧ s ∉ doubleDots) (done : List Bytes) :
    removeDots done segments = done ++ segments := by
  induction done, segments using removeDots.induct with
  | case1 done => exact (List.append_nil done).symm
  | case2 done last hd => exact absurd hd (h last (by simp)).2
  | case3 done last hd hs => exact absurd hs (h last (by simp)).1
  | case4 done last hd hs => rw [removeDots, if_neg hd, if_neg hs]
  | case5 done s rest hne hd ih => exact absurd hd (h s (by simp)).2
  | case6 done s rest hne hd hs ih => exact absurd hs (h s (by simp)).1
  | case7 done s rest hne hd hs ih =>
      rw [removeDots, if_neg hd, if_neg hs, ih (fun t ht => h t (by simp [ht]))]
      · simp
      · exact hne

/-- Removing dots drops segments, and may leave an empty one at the end. -/
theorem removeDots_sublist (done segments : List Bytes) :
    (removeDots done segments).Sublist (done ++ segments ++ [[]]) := by
  induction done, segments using removeDots.induct with
  | case1 done => simp [removeDots]
  | case2 done last hd =>
      rw [removeDots, if_pos hd]
      exact ((List.dropLast_sublist done).trans (List.sublist_append_left _ _)).append_right _
  | case3 done last hd hs =>
      rw [removeDots, if_neg hd, if_pos hs]
      exact (List.sublist_append_left done _).append_right _
  | case4 done last hd hs =>
      rw [removeDots, if_neg hd, if_neg hs]
      exact List.sublist_append_left _ _
  | case5 done s rest hne hd ih =>
      rw [removeDots, if_pos hd]
      · refine ih.trans (((List.dropLast_sublist done).append ?_).append_right _)
        exact List.sublist_cons_self s rest
      · exact hne
  | case6 done s rest hne hd hs ih =>
      rw [removeDots, if_neg hd, if_pos hs]
      · exact ih.trans (((List.Sublist.refl done).append (List.sublist_cons_self s rest)).append_right _)
      · exact hne
  | case7 done s rest hne hd hs ih =>
      rw [removeDots, if_neg hd, if_neg hs]
      · simpa using ih
      · exact hne

/-- No dot segment is left. -/
theorem not_dots_of_mem_removeDots {done segments : List Bytes} {s : Bytes}
    (hdone : ∀ t ∈ done, t ∉ singleDots ∧ t ∉ doubleDots) (hs : s ∈ removeDots done segments) :
    s ∉ singleDots ∧ s ∉ doubleDots := by
  have hempty : ([] : Bytes) ∉ singleDots ∧ ([] : Bytes) ∉ doubleDots := by decide
  induction done, segments using removeDots.induct with
  | case1 done => exact hdone s hs
  | case2 done last hd =>
      rw [removeDots, if_pos hd, List.mem_append, List.mem_singleton] at hs
      rcases hs with hs | rfl
      · exact hdone s (List.mem_of_mem_dropLast hs)
      · exact hempty
  | case3 done last hd hsd =>
      rw [removeDots, if_neg hd, if_pos hsd, List.mem_append, List.mem_singleton] at hs
      rcases hs with hs | rfl
      · exact hdone s hs
      · exact hempty
  | case4 done last hd hsd =>
      rw [removeDots, if_neg hd, if_neg hsd, List.mem_append, List.mem_singleton] at hs
      rcases hs with hs | rfl
      · exact hdone s hs
      · exact ⟨hsd, hd⟩
  | case5 done t rest hne hd ih =>
      rw [removeDots, if_pos hd] at hs
      · exact ih (fun u hu => hdone u (List.mem_of_mem_dropLast hu)) hs
      · exact hne
  | case6 done t rest hne hd hsd ih =>
      rw [removeDots, if_neg hd, if_pos hsd] at hs
      · exact ih hdone hs
      · exact hne
  | case7 done t rest hne hd hsd ih =>
      rw [removeDots, if_neg hd, if_neg hsd] at hs
      · refine ih (fun u hu => ?_) hs
        rw [List.mem_append, List.mem_singleton] at hu
        rcases hu with hu | rfl
        · exact hdone u hu
        · exact ⟨hsd, hd⟩
      · exact hne

/-! ## Parsing -/

/-- A backslash separates too in the URLs of web protocols. -/
def isSeparator (b : UInt8) : Bool := b == 47 || b == 92

/-- The bytes that end a path: `?` and `#`. -/
def endsPath (b : UInt8) : Bool := b == 63 || b == 35

def isTabOrNewline (b : UInt8) : Bool := b == 9 || b == 10 || b == 13

/-- The bytes stripped off the ends of a URL. -/
def isStripped (b : UInt8) : Bool := b ≤ 32

/-- The bytes that do not pass through a parser as part of a segment. -/
def isReserved (b : UInt8) : Bool := isSeparator b || endsPath b || isTabOrNewline b

def clean (s : Bytes) : Bytes := (s.rdropWhile isStripped).filter (fun b => !isTabOrNewline b)

def pathOf (s : Bytes) : Bytes := s.takeWhile (fun b => !endsPath b)

/-- What is between the first `?` and the `#`. -/
def queryOf (s : Bytes) : Option Bytes :=
  match (s.takeWhile (fun b => !(b == 35))).dropWhile (fun b => !(b == 63)) with
  | [] => none
  | _ :: query => some query

def pieces (s : Bytes) : List Bytes := (pathOf (clean s)).splitOnP isSeparator

structure Target where
  segments : List Bytes
  query : Option Bytes
deriving DecidableEq

/-- What the text after `scheme://authority/` is parsed to. -/
def parse (path query : EncodeSet) (s : Bytes) : Target where
  segments := removeDots [] ((pieces s).map (percentEncode path))
  query := (queryOf (clean s)).map (percentEncode query)

/-! ## What passes through unchanged -/

/-- The text of a URL with the given segments and query. -/
def text (segments : List Bytes) (query : Option Bytes) : Bytes :=
  [47].intercalate segments ++ (query.map (List.cons 63)).getD []

/-- A byte that is not reserved separates nothing, ends nothing and is kept by the parser.
    -/
theorem isReserved_false {b : UInt8} (h : isReserved b = false) :
    isSeparator b = false ∧ endsPath b = false ∧ isTabOrNewline b = false := by
  simpa [isReserved, and_assoc] using h

/-- The bytes of segments that are joined are slashes or of a segment. -/
theorem mem_intercalate {segments : List Bytes} {b : UInt8} (h : b ∈ [47].intercalate segments) :
    b = 47 ∨ ∃ s ∈ segments, b ∈ s := by
  induction segments with
  | nil => exact absurd h (by simp)
  | cons s rest ih =>
      cases rest with
      | nil => exact .inr ⟨s, by simp, by simpa using h⟩
      | cons t rest =>
          rw [List.intercalate_cons_cons, List.mem_append, List.mem_append] at h
          rcases h with (h | h) | h
          · exact .inr ⟨s, by simp, h⟩
          · exact .inl (by simpa using h)
          · rcases ih h with h | ⟨u, hu, hb⟩
            · exact .inl h
            · exact .inr ⟨u, by simp [hu], hb⟩

/-- Segments without separators that are joined are split again. -/
theorem splitOnP_intercalate {segments : List Bytes} (hne : segments ≠ [])
    (h : ∀ s ∈ segments, ∀ b ∈ s, isSeparator b = false) :
    ([47].intercalate segments).splitOnP isSeparator = segments := by
  induction segments with
  | nil => exact absurd rfl hne
  | cons s rest ih =>
      cases rest with
      | nil =>
          rw [List.intercalate_singleton]
          exact List.splitOnP_eq_singleton (h s (by simp))
      | cons t rest =>
          rw [List.intercalate_cons_cons, List.append_assoc, List.singleton_append,
            List.splitOnP_append_cons_of_forall_mem (h s (by simp)) 47 rfl,
            ih (by simp) (fun u hu => h u (by simp [hu]))]

/-- Text without tabs, line feeds and blanks at its end is not cleaned. -/
theorem clean_of_forall {s : Bytes} (h : ∀ b ∈ s, isTabOrNewline b = false)
    (hlast : ∀ b ∈ s.getLast?, isStripped b = false) : clean s = s := by
  have hstrip : s.rdropWhile isStripped = s := by
    refine List.rdropWhile_eq_self_iff.mpr (fun hne => ?_)
    rw [hlast _ (List.getLast?_eq_getLast_of_ne_nil hne)]
    exact Bool.false_ne_true
  rw [clean, hstrip]
  exact List.filter_eq_self.mpr (fun b hb => by rw [h b hb]; rfl)

/-- Segments and a query whose text a parser takes as they are. -/
structure Plain (segments : List Bytes) (query : Option Bytes) : Prop where
  ne_nil : segments ≠ []
  unreserved : ∀ s ∈ segments, ∀ b ∈ s, isReserved b = false
  unfragmented : ∀ q ∈ query, ∀ b ∈ q, b ≠ 35 ∧ isTabOrNewline b = false
  last : ∀ b ∈ (text segments query).getLast?, isStripped b = false

section Text

variable {segments : List Bytes} {query : Option Bytes} (h : Plain segments query)

include h

/-- No byte of the joined segments ends the path or is cleaned away. -/
theorem Plain.joined {b : UInt8} (hb : b ∈ [47].intercalate segments) :
    endsPath b = false ∧ isTabOrNewline b = false := by
  rcases mem_intercalate hb with rfl | ⟨s, hs, hbs⟩
  · decide
  · exact (isReserved_false (h.unreserved s hs b hbs)).2

/-- A plain text is not cleaned. -/
theorem Plain.clean_text : clean (text segments query) = text segments query := by
  refine clean_of_forall (fun b hb => ?_) h.last
  rcases List.mem_append.mp hb with hb | hb
  · exact (h.joined hb).2
  · cases hq : query with
    | none => rw [hq] at hb; exact absurd hb (by simp)
    | some q =>
        rw [hq] at hb
        rcases List.mem_cons.mp hb with rfl | hb
        · decide
        · exact (h.unfragmented q hq b hb).2

/-- The pieces of a plain text are its segments. -/
theorem Plain.pieces_text : pieces (text segments query) = segments := by
  have hpath : pathOf (text segments query) = [47].intercalate segments := by
    rw [pathOf, text, List.takeWhile_append_of_pos (fun b hb => by rw [(h.joined hb).1]; rfl)]
    cases query with
    | none => exact List.append_nil _
    | some q => exact List.append_nil _
  rw [pieces, h.clean_text, hpath, splitOnP_intercalate h.ne_nil
    (fun s hs b hb => (isReserved_false (h.unreserved s hs b hb)).1)]

/-- The query of a plain text is its query. -/
theorem Plain.queryOf_text : queryOf (text segments query) = query := by
  have hends : ∀ b ∈ [47].intercalate segments, b ≠ 63 ∧ b ≠ 35 := by
    intro b hb
    simpa [endsPath] using (h.joined hb).1
  rw [queryOf, text, List.takeWhile_append_of_pos (fun b hb => by simpa using (hends b hb).2),
    List.dropWhile_append_of_pos (fun b hb => by simpa using (hends b hb).1)]
  cases hquery : query with
  | none => rfl
  | some q =>
      have hq : (63 :: q).takeWhile (fun b => !(b == 35)) = 63 :: q := by
        refine List.takeWhile_eq_self_iff.mpr (fun b hb => ?_)
        rcases List.mem_cons.mp hb with rfl | hb
        · decide
        · simpa using (h.unfragmented q hquery b hb).1
      rw [Option.map_some, Option.getD_some, hq]
      rfl

/-- **The text of plain segments parses back to them**, encoded. -/
theorem Plain.parse_text (path querySet : EncodeSet)
    (hdots : ∀ s ∈ segments, percentEncode path s ∉ singleDots ∧ percentEncode path s ∉ doubleDots) :
    parse path querySet (text segments query)
      = ⟨segments.map (percentEncode path), query.map (percentEncode querySet)⟩ := by
  rw [parse, h.pieces_text, h.clean_text, h.queryOf_text, removeDots_of_not_mem]
  · rfl
  · intro t ht
    obtain ⟨s, hs, rfl⟩ := List.mem_map.mp ht
    exact hdots s hs

end Text

/-! ## Where a parsed segment comes from -/

/-- What the text between two slashes is cut down to. -/
def inner (s : Bytes) : Bytes := pathOf (s.filter (fun b => !isTabOrNewline b))

/-- Before a slash only tabs and line feeds are cleaned away. -/
theorem clean_append_slash (s t : Bytes) :
    clean (s ++ 47 :: t) = s.filter (fun b => !isTabOrNewline b) ++ 47 :: clean t := by
  have hstrip : (s ++ 47 :: t).rdropWhile isStripped = s ++ 47 :: t.rdropWhile isStripped := by
    induction t using List.reverseRecOn with
    | nil =>
        rw [List.rdropWhile_concat_neg isStripped s 47 (by decide)]
        rfl
    | append_singleton t b ih =>
        rw [← List.cons_append, ← List.append_assoc, List.rdropWhile_concat, List.rdropWhile_concat]
        by_cases hb : isStripped b = true
        · rw [if_pos hb, if_pos hb, ih]
        · rw [if_neg hb, if_neg hb, List.append_assoc, List.cons_append]
  rw [clean, hstrip, List.filter_append, List.filter_cons_of_pos (by decide)]
  rfl

/-- The text after a slash is either cut off or split on its own. -/
theorem pieces_append_slash (s t : Bytes) :
    pieces (s ++ 47 :: t) = (inner s).splitOnP isSeparator
      ∨ pieces (s ++ 47 :: t) = (inner s).splitOnP isSeparator ++ pieces t := by
  rw [pieces, clean_append_slash, pathOf]
  generalize hs' : s.filter (fun b => !isTabOrNewline b) = s'
  have hinner : inner s = s'.takeWhile (fun b => !endsPath b) := by rw [inner, hs', pathOf]
  by_cases hall : ∀ b ∈ s', (!endsPath b) = true
  · right
    rw [hinner, List.takeWhile_eq_self_iff.mpr hall, List.takeWhile_append_of_pos hall,
      List.takeWhile_cons_of_pos (by decide), List.splitOnP_append_cons _ _ (by decide)]
    rfl
  · left
    rw [hinner, List.takeWhile_append, if_neg]
    intro hlen
    exact hall (List.takeWhile_eq_self_iff.mp
      ((List.takeWhile_prefix _).eq_of_length hlen))

/-- After a plain segment there is always a cut at the slash. -/
theorem pieces_plain_append_slash {s : Bytes} (h : ∀ b ∈ s, isReserved b = false) (t : Bytes) :
    pieces (s ++ 47 :: t) = s :: pieces t := by
  have hfilter : s.filter (fun b => !isTabOrNewline b) = s :=
    List.filter_eq_self.mpr (fun b hb => by rw [(isReserved_false (h b hb)).2.2]; rfl)
  rw [pieces, clean_append_slash, hfilter, pathOf,
    List.takeWhile_append_of_pos (fun b hb => by rw [(isReserved_false (h b hb)).2.1]; rfl),
    List.takeWhile_cons_of_pos (by decide),
    List.splitOnP_append_cons_of_forall_mem (fun b hb => (isReserved_false (h b hb)).1) 47 rfl]
  rfl

/-- A piece is a part of the text without separators. -/
theorem mem_splitOnP {p s : Bytes} (h : p ∈ s.splitOnP isSeparator) :
    p.Sublist s ∧ ∀ b ∈ p, isSeparator b = false := by
  induction s generalizing p with
  | nil =>
      rw [List.splitOnP_nil, List.mem_singleton] at h
      rw [h]
      exact ⟨List.Sublist.refl _, fun _ hb => nomatch hb⟩
  | cons b s ih =>
      rw [List.splitOnP_cons_eq_if_modifyHead] at h
      by_cases hb : isSeparator b = true
      · rw [if_pos hb, List.mem_cons] at h
        rcases h with rfl | h
        · exact ⟨List.nil_sublist _, fun _ hc => nomatch hc⟩
        · exact ⟨(ih h).1.cons b, (ih h).2⟩
      · rw [if_neg hb] at h
        cases hsplit : s.splitOnP isSeparator with
        | nil => exact absurd hsplit (List.splitOnP_ne_nil _ _)
        | cons q rest =>
            rw [hsplit] at h ih
            rcases List.mem_cons.mp h with rfl | h
            · refine ⟨(ih (by simp)).1.cons_cons b, fun c hc => ?_⟩
              rcases List.mem_cons.mp hc with rfl | hc
              · exact Bool.not_eq_true _ ▸ hb
              · exact (ih (by simp)).2 c hc
            · exact ⟨(ih (by simp [h])).1.cons b, (ih (by simp [h])).2⟩

/-- A piece of a path has no reserved byte. -/
theorem mem_splitOnP_pathOf {p s : Bytes} (h : p ∈ (pathOf s).splitOnP isSeparator)
    (hs : ∀ b ∈ s, isTabOrNewline b = false) :
    p.Sublist s ∧ ∀ b ∈ p, isReserved b = false := by
  obtain ⟨hsub, hsep⟩ := mem_splitOnP h
  refine ⟨hsub.trans (List.takeWhile_sublist _), fun b hb => ?_⟩
  have hend : endsPath b = false := by simpa using List.mem_takeWhile_imp (hsub.subset hb)
  have htab := hs b (hsub.trans (List.takeWhile_sublist _) |>.subset hb)
  rw [isReserved, hsep b hb, hend, htab]
  rfl

/-- A segment between two slashes is made of plain bytes of the text there. -/
theorem mem_splitOnP_inner {p s : Bytes} (h : p ∈ (inner s).splitOnP isSeparator) :
    p.Sublist s ∧ ∀ b ∈ p, isReserved b = false := by
  obtain ⟨hsub, hplain⟩ := mem_splitOnP_pathOf h
    (fun b hb => by simpa using (List.mem_filter.mp hb).2)
  exact ⟨hsub.trans List.filter_sublist, hplain⟩

/-- A segment after the last slash is made of plain bytes of the text there, stripped. -/
theorem mem_pieces {p s : Bytes} (h : p ∈ pieces s) :
    p.Sublist (s.rdropWhile isStripped) ∧ ∀ b ∈ p, isReserved b = false := by
  obtain ⟨hsub, hplain⟩ := mem_splitOnP_pathOf h
    (fun b hb => by simpa using (List.mem_filter.mp hb).2)
  exact ⟨hsub.trans List.filter_sublist, hplain⟩

/-- A parsed segment that is not empty is a piece of the text, encoded, and no dot segment. -/
theorem segments_sublist {path querySet : EncodeSet} {s : Bytes} {segments : List Bytes}
    (h : (parse path querySet s).segments = segments) (hlast : segments.getLast? ≠ some []) :
    segments.Sublist ((pieces s).map (percentEncode path)) := by
  have hsub := removeDots_sublist [] ((pieces s).map (percentEncode path))
  rw [List.nil_append, show removeDots [] ((pieces s).map (percentEncode path)) = segments from h,
    List.sublist_append_iff] at hsub
  obtain ⟨front, back, rfl, hfront, hback⟩ := hsub
  rcases List.sublist_singleton.mp hback with rfl | rfl
  · rw [List.append_nil]
    exact hfront
  · exact absurd List.getLast?_concat hlast

/-- A parsed URL has no dot segments. -/
theorem not_dots_of_mem_segments {path querySet : EncodeSet} {s segment : Bytes}
    (h : segment ∈ (parse path querySet s).segments) :
    segment ∉ singleDots ∧ segment ∉ doubleDots :=
  not_dots_of_mem_removeDots (fun _ ht => absurd ht List.not_mem_nil) h

end UrlPath
