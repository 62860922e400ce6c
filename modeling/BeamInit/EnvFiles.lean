import BeamInit.LastWins
import BeamInit.LexOrder
import BeamInit.Os
import BeamInit.Text

/-! # Environment files — `env_line` and the files it reads

    A line of an environment file defines a variable or is passed over.  The
    lines of a file, and the files, are read in order, and the last definition of
    a variable wins. -/

namespace BeamEnvFiles

open BeamApi BeamOs LastWins Text

/-! ## Lines -/

/-- `c.is_ascii_alphanumeric() || c == b'_'`. -/
def isKeyByte (c : UInt8) : Bool :=
  (48 ≤ c && c ≤ 57) || (65 ≤ c && c ≤ 90) || (97 ≤ c && c ≤ 122) || c == 95

/-- `v.starts_with(quote) && v.ends_with(quote)`. -/
def isQuotedBy (quote : Char) (v : List Char) : Bool :=
  v.head? == some quote && v.getLast? == some quote

/-- `env_line`; slicing off a character boundary would panic. -/
def envLine (line : List Char) : Except Panic (Option (List Char × List Char)) :=
  let line := trimStart line
  if line = [] ∨ line.head? = some '#' then .ok none
  else
    match splitOnce '=' line with
    | none => .ok none
    | some (k, v) =>
        if k = [] ∨ ¬(k.flatMap String.utf8EncodeChar).all isKeyByte then .ok none
        else if 2 ≤ byteLen v ∧ (isQuotedBy '"' v ∨ isQuotedBy '\'' v) then
          match slice v 1 (byteLen v - 1) with
          | none => .error (.panic "byte index is not a char boundary")
          | some v => .ok (some (k, v))
        else .ok (some (k, v))

/-- `env_from_file`, of the contents of the file. -/
def envFromText (contents : String) : Except Panic (BTreeMap String String) := do
  let entries ← (lines contents.toList).mapM envLine
  return .ofList (entries.reduceOption.map (Prod.map String.ofList String.ofList)) compare

/-- `env_from_file`; `readToString` is what the file system answers. -/
def envFromFile (readToString : String → Except IoError String) (envFile : String) :
    Except Panic (Except IoError (BTreeMap String String)) :=
  match readToString envFile with
  | .error e => .ok (.error e)
  | .ok contents => do return .ok (← envFromText contents)

/-- The loop of `env_from_files`. -/
def envFromFiles (readToString : String → Except IoError String) (env : BTreeMap String String) :
    List String → Except Panic (Except IoError (BTreeMap String String))
  | [] => .ok (.ok env)
  | envFile :: envFiles => do
      match ← envFromFile readToString envFile with
      | .error e => return .error e
      | .ok contents => envFromFiles readToString (env.insertMany contents.toList) envFiles

/-! ## What a line defines -/

/-- The characters of a key. -/
def isKeyChar (c : Char) : Bool := c.isAlphanum || c == '_'

/-- The bytes of a key, by number. -/
theorem isKeyByte_ofNat {n : Nat} (h : n < 256) : isKeyByte (UInt8.ofNat n) = true ↔
    48 ≤ n ∧ n ≤ 57 ∨ 65 ≤ n ∧ n ≤ 90 ∨ 97 ≤ n ∧ n ≤ 122 ∨ n = 95 := by
  have hn : n % 256 = n := Nat.mod_eq_of_lt h
  simp [isKeyByte, UInt8.le_iff_toNat_le, ← UInt8.toNat_inj, hn, or_assoc]

/-- The characters of a key, by number. -/
theorem isKeyChar_iff (c : Char) : isKeyChar c = true ↔
    48 ≤ c.val.toNat ∧ c.val.toNat ≤ 57 ∨ 65 ≤ c.val.toNat ∧ c.val.toNat ≤ 90
      ∨ 97 ≤ c.val.toNat ∧ c.val.toNat ≤ 122 ∨ c.val.toNat = 95 := by
  simp [isKeyChar, Char.isAlphanum, Char.isAlpha, Char.isUpper, Char.isLower, Char.isDigit,
    UInt32.le_iff_toNat_le, ← UInt32.toNat_inj, Char.ext_iff]
  omega

/-- The check of the bytes is one of the characters: no byte of a longer code passes. -/
theorem all_isKeyByte (c : Char) : (String.utf8EncodeChar c).all isKeyByte = isKeyChar c := by
  rw [Bool.eq_iff_iff, isKeyChar_iff]
  have hd : c.val.toNat < 1114112 := by
    have := c.valid
    simp only [UInt32.isValidChar, Nat.isValidChar] at this
    omega
  unfold String.utf8EncodeChar
  generalize c.val.toNat = v at *
  dsimp only
  split_ifs
  · rw [List.all_cons, List.all_nil, Bool.and_true, isKeyByte_ofNat (by omega)]
  all_goals
    rw [List.all_cons, Bool.and_eq_true, isKeyByte_ofNat (by omega)]
    omega

/-- A text is a key by its bytes if it is one by its characters. -/
theorem all_isKeyByte_flatMap (k : List Char) :
    (k.flatMap String.utf8EncodeChar).all isKeyByte = k.all isKeyChar := by
  rw [List.all_flatMap]
  simp only [all_isKeyByte]

/-- A value without the quotes around it. -/
def unquote (v : List Char) : List Char :=
  if 2 ≤ v.length ∧ (isQuotedBy '"' v ∨ isQuotedBy '\'' v) then v.tail.dropLast else v

/-- The variable a line defines: everything before the first `=`, if that is a key,
    and what follows it. -/
def definition (line : List Char) : Option (List Char × List Char) :=
  match splitOnce '=' (trimStart line) with
  | none => none
  | some (k, v) => if k ≠ [] ∧ k.all isKeyChar then some (k, unquote v) else none

/-- A quoted value is more than one quote, and the quotes are single bytes. -/
theorem isQuotedBy_iff {quote : Char} {v : List Char} :
    isQuotedBy quote v = true ∧ 2 ≤ v.length ↔ ∃ w, v = quote :: (w ++ [quote]) := by
  constructor
  · rintro ⟨hquoted, hlen⟩
    rw [isQuotedBy, Bool.and_eq_true, beq_iff_eq, beq_iff_eq] at hquoted
    obtain ⟨tail, rfl⟩ := List.head?_eq_some_iff.mp hquoted.1
    rw [List.length_cons] at hlen
    obtain ⟨c, w, rfl⟩ :=
      List.exists_cons_of_ne_nil (List.ne_nil_of_length_pos (by omega : 0 < tail.length))
    rw [List.getLast?_cons_cons] at hquoted
    obtain ⟨front, hfront⟩ := List.getLast?_eq_some_iff.mp hquoted.2
    exact ⟨front, by rw [hfront]⟩
  · rintro ⟨w, rfl⟩
    refine ⟨?_, by simp⟩
    rw [isQuotedBy, ← List.cons_append, List.getLast?_concat]
    simp

/-- What is quoted on both sides has two characters. -/
theorem two_le_length {quote : Char} (hsize : quote.utf8Size = 1) {v : List Char}
    (hlen : 2 ≤ byteLen v) (h : isQuotedBy quote v = true) : 2 ≤ v.length := by
  cases v with
  | nil => exact absurd hlen (by decide)
  | cons c v =>
      cases v with
      | nil =>
          rw [isQuotedBy, Bool.and_eq_true, beq_iff_eq, List.head?_cons] at h
          rw [byteLen_cons, byteLen_nil, Option.some.inj h.1, hsize] at hlen
          exact absurd hlen (by decide)
      | cons d v => exact Nat.le_add_left 2 v.length

/-- Between the quotes is what was quoted. -/
theorem slice_quoted {quote : Char} (hsize : quote.utf8Size = 1) (w : List Char) :
    slice (quote :: (w ++ [quote])) 1 (byteLen (quote :: (w ++ [quote])) - 1) = some w := by
  have hone : byteLen [quote] = 1 := by rw [byteLen_cons, byteLen_nil, hsize]
  have hlen : byteLen (quote :: (w ++ [quote])) - 1 = byteLen [quote] + byteLen w := by
    rw [byteLen_cons, byteLen_append, hone, hsize]
    omega
  have := slice_append [quote] w [quote]
  rwa [← hlen, hone, List.singleton_append, List.cons_append] at this

/-- What stands before the first `=` of a comment is empty or starts with the `#`. -/
theorem not_key_of_comment {rest k v : List Char} (h : splitOnce '=' ('#' :: rest) = some (k, v)) :
    ¬(k ≠ [] ∧ k.all isKeyChar = true) := by
  rintro ⟨hne, hall⟩
  obtain ⟨c, k, rfl⟩ := List.exists_cons_of_ne_nil hne
  obtain ⟨heq, -⟩ := splitOnce_eq_some.mp h
  obtain rfl : '#' = c := (List.cons.inj heq).1
  rw [List.all_cons, Bool.and_eq_true] at hall
  exact absurd hall.1 (by decide)

/-- **`env_line` never slices outside the value**, and defines what the line says. -/
theorem envLine_eq (line : List Char) : envLine line = .ok (definition line) := by
  rw [envLine, definition]
  generalize trimStart line = line
  by_cases hcomment : line = [] ∨ line.head? = some '#'
  · rw [if_pos hcomment]
    rcases hcomment with rfl | hhead
    · rfl
    · obtain ⟨rest, rfl⟩ := List.head?_eq_some_iff.mp hhead
      cases hsplit : splitOnce '=' ('#' :: rest) with
      | none => rfl
      | some pair =>
          obtain ⟨k, v⟩ := pair
          dsimp only
          rw [if_neg (not_key_of_comment hsplit)]
  · rw [if_neg hcomment]
    cases hsplit : splitOnce '=' line with
    | none => rfl
    | some pair =>
        obtain ⟨k, v⟩ := pair
        dsimp only
        rw [all_isKeyByte_flatMap]
        by_cases hkey : k ≠ [] ∧ k.all isKeyChar = true
        · rw [if_pos hkey, if_neg (by rw [not_or, not_not]; exact hkey)]
          by_cases hquoted : 2 ≤ v.length ∧ (isQuotedBy '"' v = true ∨ isQuotedBy '\'' v = true)
          · obtain ⟨quote, w, hsize, rfl⟩ :
                ∃ quote w, quote.utf8Size = 1 ∧ v = quote :: (w ++ [quote]) := by
              rcases hquoted with ⟨hlen, hdouble | hsingle⟩
              · exact ⟨'"', (isQuotedBy_iff.mp ⟨hdouble, hlen⟩).elim fun w hw => ⟨w, rfl, hw⟩⟩
              · exact ⟨'\'', (isQuotedBy_iff.mp ⟨hsingle, hlen⟩).elim fun w hw => ⟨w, rfl, hw⟩⟩
            rw [if_pos ⟨hquoted.1.trans length_le_byteLen, hquoted.2⟩, slice_quoted hsize, unquote,
              if_pos hquoted,
              List.tail_cons, List.dropLast_concat]
          · -- A lone quote is one byte, so counting bytes or characters is the same here.
            have hbytes : ¬(2 ≤ byteLen v ∧ (isQuotedBy '"' v = true ∨ isQuotedBy '\'' v = true)) :=
              fun h => hquoted ⟨h.2.elim (two_le_length rfl h.1) (two_le_length rfl h.1), h.2⟩
            rw [if_neg hbytes, unquote, if_neg hquoted]
        · rw [if_neg hkey, if_pos (by rwa [← not_not (a := k = []), ← not_and_or])]

/-! ## What a file defines -/

/-- The definitions of a file, in order. -/
def definitions (contents : String) : List (String × String) :=
  ((lines contents.toList).filterMap definition).map (Prod.map String.ofList String.ofList)

/-- Reading the lines never fails. -/
theorem mapM_envLine (ls : List (List Char)) : ls.mapM envLine = .ok (ls.map definition) := by
  induction ls with
  | nil => rfl
  | cons l ls ih =>
      rw [List.mapM_cons, envLine_eq, ih]
      rfl

/-- A file gives the map of its definitions, the last one of a key counting. -/
theorem envFromText_eq (contents : String) :
    envFromText contents = .ok (.ofList (definitions contents) compare) := by
  have hreduce : ((lines contents.toList).map definition).reduceOption
      = (lines contents.toList).filterMap definition := by
    rw [List.reduceOption, List.filterMap_map]
    rfl
  rw [envFromText, mapM_envLine, definitions, ← hreduce]
  rfl

/-- Lines separated by newlines, the last one with a newline or without. -/
def joinLines (ended : Bool) : List (List Char) → List Char
  | [] => []
  | [l] => if ended then l ++ ['\n'] else l
  | l :: l' :: ls => l ++ '\n' :: joinLines ended (l' :: ls)

/-- Lines that mean the same without a carriage return at their end are read as
    they were written. -/
theorem filterMap_lines {ls : List (List Char)}
    (h : ∀ l ∈ ls, '\n' ∉ l ∧ definition (stripCr l) = definition l) (ended : Bool) :
    (lines (joinLines ended ls)).filterMap definition = ls.filterMap definition := by
  fun_induction joinLines ended ls with
  | case1 => rfl
  | case2 l hended =>
      obtain ⟨hnewline, hstrip⟩ := h l List.mem_cons_self
      rw [lines_append hnewline, List.filterMap_cons, List.filterMap_cons, hstrip]
      rfl
  | case3 l hended =>
      obtain ⟨hnewline, -⟩ := h l List.mem_cons_self
      rw [lines_last hnewline]
      cases l with
      | nil => rfl
      | cons c l => rfl
  | case4 l l' ls ih =>
      obtain ⟨⟨hnewline, hstrip⟩, hrest⟩ := List.forall_mem_cons.mp h
      rw [lines_append hnewline, List.filterMap_cons, List.filterMap_cons, hstrip, ih hrest]

/-- A line of a file: a quoted definition after blanks, or any other text. -/
inductive FileLine where
  | entry (blanks : List Char) (quote : Char) (key value : String)
  | other (text : List Char)

def FileLine.text : FileLine → List Char
  | .entry blanks quote key value =>
      blanks ++ (key.toList ++ '=' :: quote :: (value.toList ++ [quote]))
  | .other text => text

def FileLine.entry? : FileLine → Option (String × String)
  | .entry _ _ key value => some (key, value)
  | .other _ => none

/-- An empty line, a comment, a line without `=`, or one where what stands before
    the first `=`, leading blanks removed, is no key. -/
def DefinesNothing (text : List Char) : Prop :=
  text = [] ∨ text.head? = some '#' ∨ '=' ∉ text
    ∨ ∃ k v, text = k ++ '=' :: v ∧ '=' ∉ k
        ∧ (trimStart k = [] ∨ ∃ c ∈ trimStart k, isKeyChar c = false)

def FileLine.WellFormed : FileLine → Prop
  | .entry blanks quote _ _ =>
      (∀ c ∈ blanks, isWhitespace c = true ∧ c ≠ '\n') ∧ (quote = '"' ∨ quote = '\'')
  | .other text => '\n' ∉ text ∧ DefinesNothing text

/-- A key has no blanks. -/
theorem not_isWhitespace_of_isKeyChar {c : Char} (h : isKeyChar c = true) :
    isWhitespace c = false := by
  rw [isKeyChar_iff] at h
  simp only [isWhitespace, Bool.or_eq_false_iff, Bool.and_eq_false_iff, decide_eq_false_iff_not,
    beq_eq_false_iff_ne]
  omega

/-- Unquoting takes one pair of quotes off. -/
theorem unquote_quoted {quote : Char} (hquote : quote = '"' ∨ quote = '\'') (w : List Char) :
    unquote (quote :: (w ++ [quote])) = w := by
  have hboth : isQuotedBy quote (quote :: (w ++ [quote])) = true
      ∧ 2 ≤ (quote :: (w ++ [quote])).length := isQuotedBy_iff.mpr ⟨w, rfl⟩
  obtain ⟨hquoted, hlen⟩ := hboth
  have hany : isQuotedBy '"' (quote :: (w ++ [quote])) = true
      ∨ isQuotedBy '\'' (quote :: (w ++ [quote])) = true := by
    rcases hquote with rfl | rfl
    · exact .inl hquoted
    · exact .inr hquoted
  rw [unquote, if_pos ⟨hlen, hany⟩, List.tail_cons, List.dropLast_concat]

/-- Blanks before a definition, and its quotes, are not part of it. -/
theorem definition_entry {blanks k w : List Char} {quote : Char}
    (hblanks : ∀ c ∈ blanks, isWhitespace c = true) (hquote : quote = '"' ∨ quote = '\'')
    (hne : k ≠ []) (hkey : k.all isKeyChar = true) :
    definition (blanks ++ (k ++ '=' :: quote :: (w ++ [quote]))) = some (k, w) := by
  have hall := List.all_eq_true.mp hkey
  have hequals : '=' ∉ k := fun hmem => absurd (hall _ hmem) (by decide)
  have htrim : trimStart (k ++ '=' :: quote :: (w ++ [quote]))
      = k ++ '=' :: quote :: (w ++ [quote]) := by
    obtain ⟨c, k, rfl⟩ := List.exists_cons_of_ne_nil hne
    exact trimStart_cons (not_isWhitespace_of_isKeyChar (hall c List.mem_cons_self))
  rw [definition, trimStart_append hblanks, htrim, splitOnce_append hequals]
  dsimp only
  rw [if_pos ⟨hne, hkey⟩, unquote_quoted hquote]

/-- A line that defines nothing gives no definition. -/
theorem definition_nothing {text : List Char} (h : DefinesNothing text) : definition text = none := by
  rcases h with rfl | hcomment | hnone | ⟨k, v, rfl, hequals, hkey⟩
  · rfl
  · obtain ⟨rest, rfl⟩ := List.head?_eq_some_iff.mp hcomment
    rw [definition, trimStart_cons (by decide)]
    cases hsplit : splitOnce '=' ('#' :: rest) with
    | none => rfl
    | some pair =>
        obtain ⟨k, v⟩ := pair
        dsimp only
        rw [if_neg (not_key_of_comment hsplit)]
  · have hnone' : '=' ∉ trimStart text := fun hmem => hnone ((trimStart_suffix text).subset hmem)
    rw [definition, splitOnce_eq_none.mpr hnone']
  · have hequals' : '=' ∉ trimStart k := fun hmem => hequals ((trimStart_suffix k).subset hmem)
    rw [definition, trimStart_append_cons _ _ (by decide), splitOnce_append hequals']
    dsimp only
    refine if_neg ?_
    rintro ⟨hne, hall⟩
    rcases hkey with hnil | ⟨c, hc, hfalse⟩
    · exact hne hnil
    · exact Bool.false_ne_true (hfalse.symm.trans (List.all_eq_true.mp hall c hc))

/-- A carriage return at the end of such a line changes nothing. -/
theorem DefinesNothing.stripCr {text : List Char} (h : DefinesNothing text) :
    DefinesNothing (stripCr text) := by
  rw [Text.stripCr]
  split_ifs with hlast
  · obtain ⟨front, rfl⟩ := List.getLast?_eq_some_iff.mp hlast
    rw [List.dropLast_concat]
    rcases h with hnil | hcomment | hnone | ⟨k, v, heq, hequals, hkey⟩
    · exact absurd hnil (List.append_ne_nil_of_right_ne_nil front (List.cons_ne_nil _ _))
    · cases front with
      | nil => exact .inl rfl
      | cons c front => exact .inr (.inl hcomment)
    · exact .inr (.inr (.inl fun hmem => hnone (List.mem_append_left _ hmem)))
    · -- The carriage return is at the end of the value.
      rcases List.eq_nil_or_concat v with rfl | ⟨v, c, rfl⟩
      · exact absurd (List.append_inj' heq rfl).2 (by decide)
      · rw [List.concat_eq_append, ← List.cons_append, ← List.append_assoc] at heq
        exact .inr (.inr (.inr ⟨k, v, (List.append_inj' heq rfl).1, hequals, hkey⟩))
  · exact h

/-- The variable can be written as a quoted definition. -/
def Writable (entry : String × String) : Prop :=
  entry.1 ≠ "" ∧ entry.1.toList.all isKeyChar = true ∧ '\n' ∉ entry.2.toList

/-- What a line of a file stands for is read from it, with or without a carriage
    return at its end. -/
theorem FileLine.WellFormed.read {l : FileLine} (h : l.WellFormed)
    (hentry : ∀ entry, l.entry? = some entry → Writable entry) :
    '\n' ∉ l.text ∧ definition (stripCr l.text) = definition l.text
      ∧ (definition l.text).map (Prod.map String.ofList String.ofList) = l.entry? := by
  cases l with
  | other text =>
      obtain ⟨hnewline, hnothing⟩ := h
      rw [FileLine.text, definition_nothing hnothing, definition_nothing hnothing.stripCr]
      exact ⟨hnewline, rfl, rfl⟩
  | entry blanks quote key value =>
      obtain ⟨hblanks, hquote⟩ := h
      obtain ⟨hne, hkey, hvalue⟩ := hentry (key, value) rfl
      have hall := List.all_eq_true.mp hkey
      have hend : quote ≠ '\r' ∧ quote ≠ '\n' := by
        rcases hquote with rfl | rfl
        · exact ⟨by decide, by decide⟩
        · exact ⟨by decide, by decide⟩
      have hdefined := definition_entry (w := value.toList) (fun c hc => (hblanks c hc).1) hquote
        (fun hnil => hne (String.toList_eq_nil_iff.mp hnil)) hkey
      refine ⟨?_, ?_, ?_⟩
      · intro hmem
        simp only [FileLine.text, List.mem_append, List.mem_cons, List.not_mem_nil, or_false] at hmem
        rcases hmem with hmem | hmem | hmem | hmem | hmem | hmem
        · exact (hblanks _ hmem).2 rfl
        · exact absurd (hall _ hmem) (by decide)
        · exact absurd hmem (by decide)
        · exact hend.2 hmem.symm
        · exact hvalue hmem
        · exact hend.2 hmem.symm
      · have hconcat : FileLine.text (.entry blanks quote key value)
            = (blanks ++ (key.toList ++ '=' :: quote :: value.toList)) ++ [quote] := by
          simp [FileLine.text]
        rw [hconcat, stripCr_append _ hend.1]
      · rw [FileLine.text, hdefined, Option.map_some, Prod.map_apply, String.ofList_toList,
          String.ofList_toList]
        rfl

/-- A file of well-formed lines gives their entries in order. -/
theorem definitions_of_lines {ls : List FileLine} (hwf : ∀ l ∈ ls, l.WellFormed)
    (hentries : ∀ entry ∈ ls.filterMap FileLine.entry?, Writable entry) (ended : Bool) :
    definitions (String.ofList (joinLines ended (ls.map FileLine.text)))
      = ls.filterMap FileLine.entry? := by
  have hread := fun l hl => (hwf l hl).read fun entry hentry =>
    hentries entry (List.mem_filterMap.mpr ⟨l, hl, hentry⟩)
  rw [definitions, String.toList_ofList, filterMap_lines, List.filterMap_map, List.map_filterMap]
  · exact List.filterMap_congr fun l hl => (hread l hl).2.2
  · intro text htext
    obtain ⟨l, hl, rfl⟩ := List.mem_map.mp htext
    exact ⟨(hread l hl).1, (hread l hl).2.1⟩

/-- **A FILE OF QUOTED DEFINITIONS READS BACK AS THE MAP** it was written from, in
    any order and among any lines that define nothing; and no line makes `env_line`
    slice outside the value or off a character boundary. -/
theorem env_file_reads_back :
    (∀ (m : BTreeMap String String) (ls : List FileLine) (ended : Bool),
      (∀ key ∈ m, key ≠ "" ∧ key.toList.all isKeyChar = true) →
      (∀ key value : String, m[key]? = some value → '\n' ∉ value.toList) →
      (∀ l ∈ ls, l.WellFormed) → (ls.filterMap FileLine.entry?).Perm m.toList →
      envFromText (String.ofList (joinLines ended (ls.map FileLine.text))) = .ok m)
    ∧ ∀ line, ∃ defined, envLine line = .ok defined := by
  refine ⟨fun m ls ended hkeys hvalues hwf hperm => ?_, fun line => ⟨_, envLine_eq line⟩⟩
  have hwritable : ∀ entry ∈ ls.filterMap FileLine.entry?, Writable entry := by
    intro entry hmem
    have hget := Std.ExtTreeMap.mem_toList_iff_getElem?_eq_some.mp (hperm.subset hmem)
    have hkey := hkeys entry.1 (Std.ExtTreeMap.isSome_getElem?_iff_mem.mp (Option.isSome_of_eq_some hget))
    exact ⟨hkey.1, hkey.2, hvalues _ _ hget⟩
  rw [envFromText_eq, definitions_of_lines hwf hwritable, ofList_perm_toList hperm]

/-- A blank makes what stands before the `=` no key, and the line defines it all the
    same. -/
theorem blank_before_key_defines :
    envFromText " a=b" = .ok (.ofList [("a", "b")] compare)
      ∧ ¬∀ text : List Char, '\n' ∉ text →
          (∃ k v, text = k ++ '=' :: v ∧ '=' ∉ k ∧ (k = [] ∨ ∃ c ∈ k, isKeyChar c = false)) →
          envFromText (String.ofList text) = .ok ∅ := by
  have hdefined : definitions " a=b" = [("a", "b")] := by decide +kernel
  have hread : envFromText " a=b" = .ok (.ofList [("a", "b")] compare) := by
    rw [envFromText_eq, hdefined]
  refine ⟨hread, fun hall => ?_⟩
  have hempty := hall [' ', 'a', '=', 'b'] (by decide)
    ⟨[' ', 'a'], ['b'], rfl, by decide, .inr ⟨' ', List.mem_cons_self, by decide⟩⟩
  have hsame : String.ofList [' ', 'a', '=', 'b'] = " a=b" := by decide
  rw [hsame, hread] at hempty
  have hget := congrArg (fun m : BTreeMap String String => m["a"]?) (Except.ok.inj hempty)
  rw [getElem?_ofList, Std.ExtTreeMap.getElem?_empty] at hget
  exact absurd hget (by decide)

/-- A file with a comment, a blank before a definition, and a line without a key. -/
theorem env_file_reads_back_one :
    envFromText (String.ofList (joinLines true (List.map FileLine.text
      [.other ['#', 'x', '=', 'y'], .entry [' '] '"' "A" "say \"hi\"", .other ['?', '=', 'v']])))
      = .ok (.ofList [("A", "say \"hi\"")] compare) := by
  have hlist : (Std.ExtTreeMap.ofList [("A", "say \"hi\"")] compare).toList
      = [("A", "say \"hi\"")] := by decide +kernel
  refine env_file_reads_back.1 _ _ true (fun key hkey => ?_) (fun key value hget => ?_) ?_ ?_
  · rw [← Std.ExtTreeMap.mem_keys, ← Std.ExtTreeMap.map_fst_toList_eq_keys, hlist] at hkey
    rw [List.mem_singleton.mp hkey]
    decide +kernel
  · rw [← Std.ExtTreeMap.mem_toList_iff_getElem?_eq_some, hlist] at hget
    rw [(Prod.mk.inj (List.mem_singleton.mp hget)).2]
    decide +kernel
  · refine List.forall_mem_cons.mpr ⟨⟨by decide, .inr (.inl rfl)⟩, List.forall_mem_cons.mpr
      ⟨⟨List.forall_mem_singleton.mpr (by decide), .inl rfl⟩,
        List.forall_mem_singleton.mpr ⟨by decide, ?_⟩⟩⟩
    exact .inr (.inr (.inr ⟨['?'], ['v'], rfl, by decide, .inr ⟨'?', by decide, by decide⟩⟩))
  · rw [hlist]
    exact List.Perm.refl _

end BeamEnvFiles
