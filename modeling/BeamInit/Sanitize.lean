import BeamInit.LogWriters
import BeamInit.Os

/-! # Sanitizing — a line of log without control characters

    A service writes bytes, an administrator reads them on a terminal.  Each line is
    decoded, with replacements where it is not UTF-8, and its control characters are
    exchanged for pictures of them; tabs and newlines pass.  A line without control
    characters is returned as it is. -/

namespace BeamSanitize

open BeamApi BeamOs BeamLogWriters
open Text (isControl)

/-! ## Decoding -/

/-- How many continuation bytes a first byte asks for, and the range of the next. -/
def lead (b : UInt8) : Nat × UInt8 × UInt8 :=
  if 0xC2 ≤ b ∧ b ≤ 0xDF then (1, 0x80, 0xBF)
  else if b = 0xE0 then (2, 0xA0, 0xBF)
  else if b = 0xED then (2, 0x80, 0x9F)
  else if 0xE1 ≤ b ∧ b ≤ 0xEF then (2, 0x80, 0xBF)
  else if b = 0xF0 then (3, 0x90, 0xBF)
  else if 0xF1 ≤ b ∧ b ≤ 0xF3 then (3, 0x80, 0xBF)
  else if b = 0xF4 then (3, 0x80, 0x8F)
  else (0, 0x80, 0xBF)

/-- How many of the continuation bytes are there. -/
def continued : Nat → UInt8 → UInt8 → List UInt8 → Nat
  | 0, _, _, _ => 0
  | _ + 1, _, _, [] => 0
  | more + 1, lo, hi, b :: bytes =>
      if lo ≤ b ∧ b ≤ hi then continued more 0x80 0xBF bytes + 1 else 0

/-- A sequence that is cut short is replaced as a whole, by one character. -/
def decodeLossy : List UInt8 → List Char
  | [] => []
  | b :: bytes =>
      match (b :: bytes).toByteArray.utf8DecodeChar? 0 with
      | some c => c :: decodeLossy (bytes.drop (c.utf8Size - 1))
      | none =>
          '\uFFFD' :: decodeLossy
            (bytes.drop (continued (lead b).1 (lead b).2.1 (lead b).2.2 bytes))
termination_by bytes => bytes.length
decreasing_by
  all_goals
    rw [List.length_drop, List.length_cons]
    omega

/-- `String::from_utf8_lossy`. -/
def fromUtf8Lossy (bytes : OsString) : String := String.ofList (decodeLossy bytes)

/-- `String::from_utf8`. -/
def fromUtf8 (bytes : OsString) : Option String := String.fromUTF8? ⟨bytes.toArray⟩

/-- Lossy decoding is exact on what was encoded. -/
theorem decodeLossy_encode (chars : List Char) :
    decodeLossy (chars.flatMap String.utf8EncodeChar) = chars := by
  induction chars with
  | nil => rw [List.flatMap_nil, decodeLossy]
  | cons c chars ih =>
      have hlen := String.length_utf8EncodeChar c
      have hpos := c.utf8Size_pos
      obtain ⟨b, more, hc⟩ : ∃ b more, String.utf8EncodeChar c = b :: more :=
        List.exists_cons_of_length_pos (by omega)
      have hdecode : (b :: (more ++ chars.flatMap String.utf8EncodeChar)).toByteArray.utf8DecodeChar? 0
          = some c := by
        rw [← List.cons_append, ← hc]
        exact List.utf8DecodeChar?_utf8Encode_cons
      have hmore : more.length = c.utf8Size - 1 := by
        rw [hc, List.length_cons] at hlen
        omega
      rw [List.flatMap_cons, hc, List.cons_append, decodeLossy, hdecode]
      dsimp only
      rw [List.drop_left' hmore, ih]

/-- **What is UTF-8 is decoded as it is**. -/
theorem fromUtf8Lossy_toOsString (s : String) : fromUtf8Lossy (toOsString s) = s := by
  rw [fromUtf8Lossy, toOsString_flatMap, decodeLossy_encode, String.ofList_toList]

/-- A sequence that is cut short is one replacement, bytes that begin nothing are one each. -/
example : fromUtf8Lossy [0x68, 0xE2, 0x82, 0x41, 0xE2, 0x82, 0xAC, 0xED, 0xA0, 0x80]
    = "h\uFFFDA€\uFFFD\uFFFD\uFFFD" := by decide +kernel

/-! ## `sanitize` -/

/-- `char::from_u32`. -/
def fromU32 (n : Nat) : Option Char := if h : n.isValidChar then some (Char.ofNatAux n h) else none

/-- The closure that exchanges a character. -/
def replaceChar (ch : Char) : Except Panic Char :=
  if isFilteredControl ch = false then .ok ch
  else if ch < '\u0020' then
    match fromU32 (ch.toNat + 0x2400) with
    | some picture => .ok picture
    | none => .error (.expect "conversion can't fail")
  else .ok '⍰'

/-- The path of a line with control characters. -/
def replaceControls (line : String) : Except Panic String := do
  let chars ← line.toList.mapM replaceChar
  return String.ofList chars

/-- `sanitize`, for a decoder `String::from_utf8_lossy`. -/
def sanitize (fromUtf8Lossy : OsString → String) (line : OsString) : Except Panic String :=
  let line := (fromUtf8 line).getD (fromUtf8Lossy line)
  if line.toList.any isFilteredControl = false then .ok line
  else replaceControls line

/-! ### One character -/

/-- The arms of the code never fail, and give the replacement. -/
theorem replaceChar_eq (ch : Char) : replaceChar ch = .ok (sanitizeChar ch) := by
  rw [replaceChar, sanitizeChar]
  by_cases hclean : isFilteredControl ch = false
  · rw [if_pos hclean, if_pos hclean]
  · rw [if_neg hclean, if_neg hclean]
    by_cases hpicture : ch.toNat < 0x20
    · have hvalid : (ch.toNat + 0x2400).isValidChar := Or.inl (by omega)
      rw [if_pos hpicture, if_pos (show ch < '\u0020' from hpicture), fromU32, dif_pos hvalid,
        Char.ofNat, dif_pos hvalid]
    · rw [if_neg hpicture, if_neg (show ¬ ch < '\u0020' from hpicture)]

/-- Tabs and line feeds are the control characters that are kept. -/
theorem isFilteredControl_eq_false {ch : Char} :
    isFilteredControl ch = false ↔ (isControl ch = true → ch = '\t' ∨ ch = '\n') := by
  rw [isFilteredControl, Bool.and_eq_false_imp, Bool.not_eq_false', List.contains_iff_mem]
  refine imp_congr_right fun _ => ?_
  simp [or_comm]

/-- Any other character is kept. -/
theorem sanitizeChar_of_clean {ch : Char} (h : isFilteredControl ch = false) :
    sanitizeChar ch = ch := by
  rw [sanitizeChar, if_pos h]

/-- A control character below the space is replaced by its picture. -/
theorem toNat_sanitizeChar {ch : Char} (hfiltered : isFilteredControl ch = true)
    (hpicture : ch.toNat < 0x20) : (sanitizeChar ch).toNat = 0x2400 + ch.toNat := by
  have hpictures : ∀ n < 0x20, (Char.ofNat (n + 0x2400)).toNat = 0x2400 + n := by decide
  rw [sanitizeChar, if_neg (by rw [hfiltered]; exact Bool.noConfusion), if_pos hpicture]
  exact hpictures _ hpicture

/-- A later control character is replaced by one sign for all. -/
theorem sanitizeChar_of_later {ch : Char} (hfiltered : isFilteredControl ch = true)
    (hlater : 0x20 ≤ ch.toNat) : sanitizeChar ch = '⍰' := by
  rw [sanitizeChar, if_neg (by rw [hfiltered]; exact Bool.noConfusion),
    if_neg (Nat.not_lt_of_le hlater)]

/-! ### A line -/

/-- The loop replaces character by character. -/
theorem replaceControls_eq (line : String) :
    replaceControls line = .ok (String.ofList (line.toList.map sanitizeChar)) := by
  have hpure : replaceChar = fun ch => pure (sanitizeChar ch) := funext replaceChar_eq
  rw [replaceControls, hpure, List.mapM_pure]
  rfl

/-- **The early return is the other path** on a line without control characters. -/
theorem replaceControls_of_clean {line : String}
    (hclean : line.toList.any isFilteredControl = false) : replaceControls line = .ok line := by
  have hsame : line.toList.map sanitizeChar = line.toList.map id := by
    refine List.map_congr_left fun ch hmem => sanitizeChar_of_clean ?_
    exact Bool.eq_false_iff.mpr (List.any_eq_false.mp hclean ch hmem)
  rw [replaceControls_eq, hsame, List.map_id, String.ofList_toList]

/-- Sanitizing is decoding and then replacing. -/
theorem sanitize_eq_replaceControls (fromUtf8Lossy : OsString → String) (line : OsString) :
    sanitize fromUtf8Lossy line = replaceControls ((fromUtf8 line).getD (fromUtf8Lossy line)) := by
  rw [sanitize]
  by_cases hclean : ((fromUtf8 line).getD (fromUtf8Lossy line)).toList.any isFilteredControl = false
  · exact (if_pos hclean).trans (replaceControls_of_clean hclean).symm
  · exact if_neg hclean

/-- A string is decoded from its bytes. -/
theorem fromUtf8_toOsString (s : String) : fromUtf8 (toOsString s) = some s :=
  fromUTF8?_eq_some.mpr rfl

section Decoder

variable {fromUtf8Lossy : OsString → String}

/-- With a decoder that keeps what is UTF-8, it does not matter which one is used. -/
theorem decoded_eq (hlossy : ∀ s, fromUtf8Lossy (toOsString s) = s) (line : OsString) :
    (fromUtf8 line).getD (fromUtf8Lossy line) = fromUtf8Lossy line := by
  cases hdecoded : fromUtf8 line with
  | none => rfl
  | some s =>
      obtain rfl := fromUTF8?_eq_some.mp hdecoded
      exact (hlossy s).symm

/-- The lines that a writer pushes are what the code makes of them. -/
theorem sanitize_eq (hlossy : ∀ s, fromUtf8Lossy (toOsString s) = s) (line : OsString) :
    sanitize fromUtf8Lossy line
      = .ok (BeamLogWriters.sanitize (fun line => (fromUtf8Lossy line).toList) line) := by
  rw [sanitize_eq_replaceControls, decoded_eq hlossy, replaceControls_eq]
  rfl

/-- A line without control characters is kept; it is UTF-8, so no decoder is asked. -/
theorem sanitize_of_clean (fromUtf8Lossy : OsString → String) {text : String}
    (hclean : ∀ ch ∈ text.toList, isFilteredControl ch = false) :
    sanitize fromUtf8Lossy (toOsString text) = .ok text := by
  rw [sanitize_eq_replaceControls, fromUtf8_toOsString, Option.getD_some]
  refine replaceControls_of_clean (List.any_eq_false.mpr fun ch hmem => ?_)
  exact Bool.eq_false_iff.mp (hclean ch hmem)

end Decoder

/-- **NO CONTROL CHARACTER REACHES A TERMINAL** but tabs and newlines.  Every line is
    sanitized without a panic, character by character: what is no control character
    stays in its place, the control characters below the space become their pictures.
    Doing it again changes nothing, and the early return is no different. -/
theorem sanitize_replaces_controls (fromUtf8Lossy : OsString → String)
    (hlossy : ∀ s, fromUtf8Lossy (toOsString s) = s) (line : OsString) :
    ∃ text : String, sanitize fromUtf8Lossy line = .ok text
      ∧ (∀ ch ∈ text.toList, isControl ch = true → ch = '\t' ∨ ch = '\n')
      ∧ text.toList.length = (fromUtf8Lossy line).toList.length
      ∧ (∀ (i : Nat) (ch : Char), (fromUtf8Lossy line).toList[i]? = some ch →
        ∃ shown : Char, text.toList[i]? = some shown
          ∧ (isControl ch = false ∨ ch = '\t' ∨ ch = '\n' → shown = ch)
          ∧ (ch.toNat < 0x20 → ch ≠ '\t' → ch ≠ '\n' → shown.toNat = 0x2400 + ch.toNat)
          ∧ (isControl ch = true → 0x20 ≤ ch.toNat → shown = '⍰'))
      ∧ sanitize fromUtf8Lossy (toOsString text) = .ok text
      ∧ replaceControls ((fromUtf8 line).getD (fromUtf8Lossy line)) = .ok text := by
  refine ⟨_, sanitize_eq hlossy line, fun ch hmem => ?_, ?_, fun i ch hch => ?_, ?_, ?_⟩
  · exact isFilteredControl_eq_false.mp (sanitize_clean _ line ch hmem)
  · rw [BeamLogWriters.sanitize, String.toList_ofList, List.length_map]
  · refine ⟨sanitizeChar ch, ?_, fun hkept => ?_, fun hpicture htab hnewline => ?_,
      fun hcontrol hlater => ?_⟩
    · rw [BeamLogWriters.sanitize, String.toList_ofList, List.getElem?_map, hch]
      rfl
    · refine sanitizeChar_of_clean (isFilteredControl_eq_false.mpr fun hcontrol => ?_)
      exact hkept.resolve_left fun hnot => Bool.false_ne_true (hnot.symm.trans hcontrol)
    · refine toNat_sanitizeChar (Bool.not_eq_false _ ▸ fun hclean => ?_) hpicture
      have hcontrol : isControl ch = true := by
        rw [isControl]
        simp
        omega
      rcases isFilteredControl_eq_false.mp hclean hcontrol with rfl | rfl
      · exact htab rfl
      · exact hnewline rfl
    · refine sanitizeChar_of_later (Bool.not_eq_false _ ▸ fun hclean => ?_) hlater
      rcases isFilteredControl_eq_false.mp hclean hcontrol with rfl | rfl
      · exact absurd hlater (by decide)
      · exact absurd hlater (by decide)
  · exact sanitize_of_clean fromUtf8Lossy (sanitize_clean _ line)
  · rw [← sanitize_eq_replaceControls, sanitize_eq hlossy]

/-- A carriage return and a tab after a byte that is not UTF-8. -/
theorem sanitize_replaces_controls_cr :
    sanitize fromUtf8Lossy [0x68, 0xA0, 0x0D, 0x09] = .ok "h\uFFFD␍\t"
      ∧ sanitize fromUtf8Lossy (toOsString "h\uFFFD␍\t") = .ok "h\uFFFD␍\t" := by
  obtain ⟨text, htext, -, -, -, hagain, -⟩ :=
    sanitize_replaces_controls fromUtf8Lossy fromUtf8Lossy_toOsString [0x68, 0xA0, 0x0D, 0x09]
  have hresult : sanitize fromUtf8Lossy [0x68, 0xA0, 0x0D, 0x09] = .ok "h\uFFFD␍\t" := by
    decide +kernel
  obtain rfl := Except.ok.inj (htext.symm.trans hresult)
  exact ⟨hresult, hagain⟩

end BeamSanitize
