import CodeAtlas.Proofs.Json.Numbers

/-!
# Reading what has been written

The spread text of a value is read as the value, provided that its numbers are read
as themselves and that it is not too deep (`Legible`).

* `readString_escaped`: strings of any characters.
* `readItems_moreLines`, `readMembers_moreLines`: lists and objects, member by member.
* `readValue_pretty`, `ofText_pretty`: **a legible value is read from its text.**
-/

namespace CodeAtlas.Json

variable {rest : List Char}

/-! ## Strings -/

theorem hexDigit?_digitChar {n : ℕ} (hn : n < 16) : hexDigit? (Nat.digitChar n) = some n := by
  revert n
  decide

/-- The four digits of a control character. -/
theorem readHex_control {n : ℕ} (hn : n < 256) (t : List Char) :
    readHex ('0' :: '0' :: Nat.digitChar (n / 16) :: Nat.digitChar (n % 16) :: t) = .ok (n, t) := by
  have h0 : hexDigit? '0' = some 0 := by decide
  simp only [readHex, h0, hexDigit?_digitChar (show n / 16 < 16 by omega),
    hexDigit?_digitChar (show n % 16 < 16 by omega)]
  congr 2
  omega

theorem readEscape_control {n : ℕ} (hn : n < 32) (t : List Char) :
    readEscape ('u' :: '0' :: '0' :: Nat.digitChar (n / 16) :: Nat.digitChar (n % 16) :: t) =
      .ok (.inl (Char.ofNat n), t) := by
  have hhex := readHex_control (show n < 256 by omega) t
  have hlow : ¬(0xDC00 ≤ n ∧ n ≤ 0xDFFF) := by omega
  have hplain : n < 0xD800 ∨ 0xDBFF < n := by omega
  simp only [readEscape, hhex, bind, Except.bind, pure, Except.pure]
  rw [if_neg (by simpa using hlow), if_pos (by simpa using hplain)]

/-- **An escaped character is read as itself.** -/
theorem readString_escape (n : ℕ) (c : Char) (out t : List Char) :
    readString (n + 1) none out (escape c ++ t) = readString n none (c :: out) t := by
  unfold escape
  -- the quote, the backslash, and the letters that stand for themselves
  split
  · rename_i h
    subst h
    rfl
  split
  · rename_i h
    subst h
    rfl
  split
  · rename_i h
    subst h
    rfl
  split
  · rename_i h
    subst h
    rfl
  split
  · rename_i h
    subst h
    rfl
  -- backspace and form feed are known by their numbers only
  split
  · rename_i h
    obtain rfl : c = Char.ofNat 8 := by rw [← h, Char.ofNat_toNat]
    rfl
  split
  · rename_i h
    obtain rfl : c = Char.ofNat 12 := by rw [← h, Char.ofNat_toNat]
    rfl
  split
  · rename_i h
    have hescape := readEscape_control h t
    rw [Char.ofNat_toNat] at hescape
    simp only [List.cons_append, List.nil_append, readString, hescape]
  · rename_i hcontrol
    simp [readString, hcontrol]

/-- **A string is read up to its closing quote.** -/
theorem readString_escaped {n : ℕ} {s : List Char} (hn : s.length < n) (out rest : List Char) :
    readString n none out (s.flatMap escape ++ '"' :: rest) =
      (.inl (String.ofList (out.reverse ++ s)), some rest) := by
  induction s generalizing n out with
  | nil =>
    obtain ⟨n, rfl⟩ := Nat.exists_eq_succ_of_ne_zero (Nat.ne_of_gt hn)
    simp [readString]
  | cons c s ih =>
    obtain ⟨n, rfl⟩ := Nat.exists_eq_succ_of_ne_zero (Nat.ne_of_gt (Nat.lt_of_le_of_lt (Nat.zero_le _) hn))
    rw [List.flatMap_cons, List.append_assoc, readString_escape, ih (by simpa using hn)]
    simp

theorem toList_stringText (s : String) : (stringText s).toList = '"' :: (s.toList.flatMap escape ++ ['"']) := by
  simp [stringText]

/-! ## Lines -/

/-- A new line with the blanks of a depth. -/
def newline (depth : ℕ) : List Char := '\n' :: List.replicate (2 * depth) ' '

/-- Blanks before a value do not count. -/
theorem dropGap_newline (depth : ℕ) (s : List Char) : dropGap (newline depth ++ s) = dropGap s := by
  unfold dropGap newline
  rw [List.cons_append, List.dropWhile_cons_of_pos rfl]
  exact List.dropWhile_append_of_pos fun c hc => by rw [List.eq_of_mem_replicate hc]; rfl

theorem dropGap_cons {c : Char} (hc : isGap c = false) (s : List Char) : dropGap (c :: s) = c :: s := by
  simp [dropGap, hc]

theorem endsNumber_newline (depth : ℕ) (s : List Char) : EndsNumber (newline depth ++ s) :=
  EndsNumber.cons _ (by decide) (by decide) (by decide) (by decide)

theorem endsNumber_comma (s : List Char) : EndsNumber (',' :: s) :=
  EndsNumber.cons _ (by decide) (by decide) (by decide) (by decide)

/-- The parts after the first, each on a line of its own. -/
def moreLines (depth : ℕ) (parts : List (List Char)) : List Char := parts.flatMap fun p => ',' :: (newline depth ++ p)

theorem endsNumber_moreLines (depth depth' : ℕ) (parts : List (List Char)) (s : List Char) :
    EndsNumber (moreLines depth parts ++ (newline depth' ++ s)) := by
  cases parts with
  | nil => exact endsNumber_newline depth' s
  | cons p ps => exact endsNumber_comma _

theorem toList_spread (opening closing : String) (depth : ℕ) (p : String) (ps : List String) :
    (spread opening closing depth (p :: ps)).toList = opening.toList ++ (newline (depth + 1) ++ (p.toList ++
      (moreLines (depth + 1) (ps.map String.toList) ++ (newline depth ++ closing.toList)))) := by
  have hline : ∀ n, ("\n" ++ String.ofList (List.replicate (2 * n) ' ')).toList = newline n := by
    intro n
    simp [newline]
  have hparts : ∀ (p : String) (ps : List String),
      ((("," ++ ("\n" ++ String.ofList (List.replicate (2 * (depth + 1)) ' '))).intercalate (p :: ps))).toList =
        p.toList ++ moreLines (depth + 1) (ps.map String.toList) := by
    intro p ps
    induction ps generalizing p with
    | nil => simp [moreLines]
    | cons q ps ih =>
      rw [String.intercalate_cons_cons, String.toList_append, String.toList_append, ih, String.toList_append, hline]
      simp [moreLines]
  unfold spread
  rw [if_neg (by simp)]
  simp only [String.toList_append, hparts]
  simp [newline]

/-! ## Lists and objects -/

variable {value : List Char → Step}

/-- A text that is neither a blank nor a closing bracket at its beginning. -/
def BeginsItem (s : List Char) : Prop := ∃ c t, s = c :: t ∧ isGap c = false ∧ c ≠ ']'

theorem readItems_first {s r : List Char} {d : Doc} (hs : BeginsItem s) (hv : value s = (d, some r)) (depth n : ℕ)
    (before : List Doc) :
    readItems value (n + 1) true before (newline depth ++ s) = readItems value n false (d :: before) r := by
  obtain ⟨c, t, rfl, hgap, hclose⟩ := hs
  have hdrop : dropGap (newline depth ++ c :: t) = c :: t := by rw [dropGap_newline, dropGap_cons hgap]
  simp [readItems, hdrop, hv]

theorem readItems_next {s r : List Char} {d : Doc} (hs : BeginsItem s) (hv : value s = (d, some r)) (depth n : ℕ)
    (before : List Doc) :
    readItems value (n + 1) false before (',' :: (newline depth ++ s)) = readItems value n false (d :: before) r := by
  obtain ⟨c, t, rfl, hgap, hclose⟩ := hs
  have hdrop : dropGap (newline depth ++ c :: t) = c :: t := by rw [dropGap_newline, dropGap_cons hgap]
  have hcomma : dropGap (',' :: (newline depth ++ c :: t)) = ',' :: (newline depth ++ c :: t) := rfl
  simp [readItems, hcomma, hdrop, hclose, hv]

/-- **The items after the first** are read one by one, up to the closing bracket. -/
theorem readItems_moreLines {depth : ℕ} {js : List Json}
    (hread : ∀ j ∈ js, ∀ r, EndsNumber r → value ((prettyAt depth j).toList ++ r) = (Doc.ofJson j, some r))
    (hhead : ∀ j ∈ js, ∀ r, BeginsItem ((prettyAt depth j).toList ++ r))
    {n : ℕ} (hn : js.length < n) (before : List Doc) (depth' : ℕ) (rest : List Char) :
    readItems value n false before
        (moreLines depth ((prettyItems depth js).map String.toList) ++ (newline depth' ++ ']' :: rest)) =
      (.arr (before.reverse ++ Doc.ofItems js) none, some rest) := by
  induction js generalizing n before with
  | nil =>
    obtain ⟨n, rfl⟩ := Nat.exists_eq_succ_of_ne_zero (Nat.ne_of_gt hn)
    have hgap : dropGap (newline depth' ++ ']' :: rest) = ']' :: rest := by rw [dropGap_newline]; rfl
    simp [readItems, moreLines, prettyItems, hgap, Doc.ofItems]
  | cons j js ih =>
    obtain ⟨n, rfl⟩ := Nat.exists_eq_succ_of_ne_zero (Nat.ne_of_gt (Nat.lt_of_le_of_lt (Nat.zero_le _) hn))
    have hvalue := hread j List.mem_cons_self _ (endsNumber_moreLines depth depth'
      ((prettyItems depth js).map String.toList) (']' :: rest))
    have hstep := readItems_next (hhead j List.mem_cons_self _) hvalue depth n before
    have hrest := ih (fun j hj => hread j (List.mem_cons_of_mem _ hj))
      (fun j hj => hhead j (List.mem_cons_of_mem _ hj)) (by simpa using hn) (Doc.ofJson j :: before)
    rw [hrest] at hstep
    simpa [moreLines, prettyItems, Doc.ofItems] using hstep

/-- The text of a member: its key, and its value after a blank. -/
def memberText (key : String) (s : List Char) : List Char := (stringText key).toList ++ (':' :: ' ' :: s)

theorem memberText_eq (key : String) (s : List Char) :
    memberText key s = '"' :: (key.toList.flatMap escape ++ '"' :: ':' :: ' ' :: s) := by
  simp [memberText, toList_stringText]

/-- Before a key there are only blanks. -/
theorem dropGap_member (depth : ℕ) (key : String) (s : List Char) :
    dropGap (newline depth ++ memberText key s) = memberText key s := by
  rw [dropGap_newline, memberText_eq]
  rfl

/-- **The key of a member** is looked for after its first quote. -/
theorem readString_key {bound : ℕ} {key : String} (hkey : key.toList.length < bound) (depth : ℕ) (s : List Char) :
    readString bound none [] (((newline depth ++ memberText key s).dropWhile (· ≠ '"')).drop 1) =
      (.inl key, some (':' :: ' ' :: s)) := by
  have hquote : (newline depth ++ memberText key s).dropWhile (· ≠ '"') = memberText key s := by
    unfold newline
    rw [List.cons_append, List.dropWhile_cons_of_pos (by decide)]
    rw [List.dropWhile_append_of_pos fun c hc => by rw [List.eq_of_mem_replicate hc]; decide]
    simp [memberText_eq]
  rw [hquote, memberText_eq, List.drop_one, List.tail_cons, readString_escaped hkey, List.reverse_nil, List.nil_append,
    String.ofList_toList]

theorem readMembers_first {bound : ℕ} {key : String} {s r : List Char} {d : Doc} (hkey : key.toList.length < bound)
    (hv : value (' ' :: s) = (d, some r)) (depth n : ℕ) (before : List (String × Doc)) :
    readMembers bound value (n + 1) true before (newline depth ++ memberText key s) =
      readMembers bound value n false ((key, d) :: before) r := by
  have hcolon : dropGap (':' :: ' ' :: s) = ':' :: ' ' :: s := rfl
  rw [readMembers]
  simp only [dropGap_member, readString_key hkey]
  simp [memberText_eq, hcolon, hv]

theorem readMembers_next {bound : ℕ} {key : String} {s r : List Char} {d : Doc} (hkey : key.toList.length < bound)
    (hv : value (' ' :: s) = (d, some r)) (depth n : ℕ) (before : List (String × Doc)) :
    readMembers bound value (n + 1) false before (',' :: (newline depth ++ memberText key s)) =
      readMembers bound value n false ((key, d) :: before) r := by
  have hcomma : ∀ t, dropGap (',' :: t) = ',' :: t := fun t => rfl
  have hcolon : dropGap (':' :: ' ' :: s) = ':' :: ' ' :: s := rfl
  have hskip : (',' :: (newline depth ++ memberText key s)).dropWhile (· ≠ '"') =
      (newline depth ++ memberText key s).dropWhile (· ≠ '"') := List.dropWhile_cons_of_pos (by decide)
  have hmember := dropGap_member depth key s
  rw [readMembers]
  simp only [hcomma, hskip, readString_key hkey]
  rw [memberText_eq] at hmember ⊢
  simp [hmember, hcolon, hv]

theorem toList_member (depth : ℕ) (key : String) (j : Json) :
    (stringText key ++ ": " ++ prettyAt depth j).toList = memberText key (prettyAt depth j).toList := by
  simp [memberText]

/-- **The members after the first** are read one by one, up to the closing brace. -/
theorem readMembers_moreLines {bound depth : ℕ} {ms : List (String × Json)}
    (hread : ∀ m ∈ ms, ∀ r, EndsNumber r →
      value (' ' :: ((prettyAt depth m.2).toList ++ r)) = (Doc.ofJson m.2, some r))
    (hkeys : ∀ m ∈ ms, m.1.toList.length < bound) {n : ℕ} (hn : ms.length < n) (before : List (String × Doc))
    (depth' : ℕ) (rest : List Char) :
    readMembers bound value n false before
        (moreLines depth ((prettyMembers depth ms).map String.toList) ++ (newline depth' ++ '}' :: rest)) =
      (.obj (before.reverse ++ Doc.ofMembers ms) none, some rest) := by
  induction ms generalizing n before with
  | nil =>
    obtain ⟨n, rfl⟩ := Nat.exists_eq_succ_of_ne_zero (Nat.ne_of_gt hn)
    have hgap : dropGap (newline depth' ++ '}' :: rest) = '}' :: rest := by rw [dropGap_newline]; rfl
    simp [readMembers, moreLines, prettyMembers, hgap, Doc.ofMembers]
  | cons m ms ih =>
    obtain ⟨key, j⟩ := m
    obtain ⟨n, rfl⟩ := Nat.exists_eq_succ_of_ne_zero (Nat.ne_of_gt (Nat.lt_of_le_of_lt (Nat.zero_le _) hn))
    have hvalue := hread (key, j) List.mem_cons_self _ (endsNumber_moreLines depth depth'
      ((prettyMembers depth ms).map String.toList) ('}' :: rest))
    have hstep := readMembers_next (hkeys (key, j) List.mem_cons_self) hvalue depth n before
    have hrest := ih (fun m hm => hread m (List.mem_cons_of_mem _ hm)) (fun m hm => hkeys m (List.mem_cons_of_mem _ hm))
      (by simpa using hn) ((key, Doc.ofJson j) :: before)
    rw [hrest] at hstep
    simpa [moreLines, prettyMembers, Doc.ofMembers, toList_member, memberText] using hstep

/-! ## Values -/

/-- Reads a number with its sign. -/
def readSigned : List Char → Step
  | '-' :: s => readNumber true s
  | s => readNumber false s

/-- **Whether the text of a float is read as the float.** -/
def FloatReads (x : Float) : Prop := readSigned (floatText x).toList = (.float x, some [])

mutual

/-- Whether the numbers of a value are read as themselves and it has at most so many levels. -/
def Legible (d : ℕ) : Json → Prop
  | .nat n => n ≤ maxDigits
  | .negative _ => False
  | .float x => FloatReads x
  | .arr items => 0 < d ∧ LegibleItems (d - 1) items
  | .obj members => 0 < d ∧ LegibleMembers (d - 1) members
  | _ => True

def LegibleItems (d : ℕ) : List Json → Prop
  | [] => True
  | j :: js => Legible d j ∧ LegibleItems d js

def LegibleMembers (d : ℕ) : List (String × Json) → Prop
  | [] => True
  | (_, j) :: ms => Legible d j ∧ LegibleMembers d ms

end

theorem isGap_of_isDigit {c : Char} (hc : c.isDigit = true) : isGap c = false := by
  simp only [isGap, Bool.or_eq_false_iff, decide_eq_false_iff_not]
  refine ⟨⟨⟨?_, ?_⟩, ?_⟩, ?_⟩ <;> rintro rfl <;> cases hc

theorem readValue_digit (bound d : ℕ) {c : Char} (hc : c.isDigit = true) (s : List Char) :
    readValue bound d (c :: s) = readNumber false (c :: s) := by
  unfold readValue
  rw [dropGap_cons (isGap_of_isDigit hc)]
  split <;> rename_i h <;> cases h
  case h_9 => exact if_pos hc
  all_goals cases hc

theorem readValue_minus (bound d : ℕ) (s : List Char) : readValue bound d ('-' :: s) = readNumber true s := by
  unfold readValue
  rw [dropGap_cons (by decide)]
  rfl

/-- A float that is read from its text begins with a digit or a sign. -/
theorem FloatReads.cases {x : Float} (h : FloatReads x) :
    (∃ s, (floatText x).toList = '-' :: s ∧ readNumber true s = (.float x, some [])) ∨
      ∃ c s, (floatText x).toList = c :: s ∧ c.isDigit = true ∧ readNumber false (c :: s) = (.float x, some []) := by
  unfold FloatReads at h
  cases hs : (floatText x).toList with
  | nil =>
    rw [hs] at h
    cases h
  | cons c s =>
    rw [hs] at h
    by_cases hm : c = '-'
    · subst hm
      exact Or.inl ⟨s, rfl, h⟩
    · have hn : readNumber false (c :: s) = (.float x, some []) := by
        rw [← h]
        unfold readSigned
        split
        · rename_i heq
          exact absurd (List.cons.inj heq).1 hm
        · rfl
      refine Or.inr ⟨c, s, rfl, ?_, hn⟩
      -- nothing but a digit begins a number without a sign
      by_cases h0 : c = '0'
      · subst h0
        rfl
      · rw [readNumber_of_ne false h0] at hn
        split at hn
        · assumption
        · cases hn

/-- **A float is read from its text**, whatever follows. -/
theorem readValue_float {x : Float} (h : FloatReads x) (bound d : ℕ) (hrest : EndsNumber rest) :
    readValue bound d ((floatText x).toList ++ rest) = (.float x, some rest) := by
  rcases h.cases with ⟨s, hs, hn⟩ | ⟨c, s, hs, hc, hn⟩
  · rw [hs, List.cons_append, readValue_minus]
    exact readNumber_append hn hrest
  · rw [hs, List.cons_append, readValue_digit bound d hc, ← List.cons_append]
    exact readNumber_append hn hrest

/-- **A whole number is read from its text**, whatever follows. -/
theorem readValue_nat {n : ℕ} (hn : n ≤ maxDigits) (bound d : ℕ) (hrest : EndsNumber rest) :
    readValue bound d ((toString n).toList ++ rest) = (.nat n, some rest) := by
  rw [Nat.toString_eq_ofList_toDigits, String.toList_ofList]
  have hread := readNumber_toDigits hn hrest
  cases hs : Nat.toDigits 10 n with
  | nil => exact absurd hs Nat.toDigits_ne_nil
  | cons c s =>
    have hc : c.isDigit = true :=
      Nat.isDigit_of_mem_toDigits (n := n) (b := 10) (by omega) (by omega) (by rw [hs]; exact List.mem_cons_self)
    rw [hs] at hread
    rw [List.cons_append] at hread ⊢
    rw [readValue_digit bound d hc, hread]

theorem BeginsItem.of_isDigit {c : Char} (hc : c.isDigit = true) (s : List Char) : BeginsItem (c :: s) := by
  refine ⟨c, s, rfl, isGap_of_isDigit hc, ?_⟩
  rintro rfl
  cases hc

theorem spread_eq (opening closing : String) (depth : ℕ) (parts : List String) :
    ∃ s, spread opening closing depth parts = opening ++ s := by
  unfold spread
  split
  · exact ⟨closing, rfl⟩
  · exact ⟨_, by simp only [String.append_assoc]; rfl⟩

/-- No item of a list begins with a blank or with the bracket that closes the list. -/
theorem beginsItem_pretty {d : ℕ} {j : Json} (h : Legible d j) (k : ℕ) (r : List Char) :
    BeginsItem ((prettyAt k j).toList ++ r) := by
  cases j with
  | null =>
    rw [prettyAt]
    exact ⟨'n', _, rfl, by decide, by decide⟩
  | bool b =>
    rw [prettyAt]
    cases b with
    | false => exact ⟨'f', _, rfl, by decide, by decide⟩
    | true => exact ⟨'t', _, rfl, by decide, by decide⟩
  | nat n =>
    have htext : (prettyAt k (.nat n)).toList = Nat.toDigits 10 n := by
      rw [prettyAt, Nat.toString_eq_ofList_toDigits, String.toList_ofList]
    rw [htext]
    cases hs : Nat.toDigits 10 n with
    | nil => exact absurd hs Nat.toDigits_ne_nil
    | cons c s =>
      exact BeginsItem.of_isDigit
        (Nat.isDigit_of_mem_toDigits (n := n) (b := 10) (by omega) (by omega) (by rw [hs]; exact List.mem_cons_self)) _
  | negative n => exact h.elim
  | float x =>
    have h : FloatReads x := h
    rw [prettyAt]
    rcases h.cases with ⟨s, hs, -⟩ | ⟨c, s, hs, hc, -⟩
    · rw [hs]
      exact ⟨'-', _, rfl, by decide, by decide⟩
    · rw [hs]
      exact BeginsItem.of_isDigit hc _
  | str s =>
    rw [prettyAt, toList_stringText]
    exact ⟨'"', _, rfl, by decide, by decide⟩
  | arr items =>
    obtain ⟨s, hs⟩ := spread_eq "[" "]" k (prettyItems (k + 1) items)
    rw [prettyAt, hs, String.toList_append]
    exact ⟨'[', _, rfl, by decide, by decide⟩
  | obj members =>
    obtain ⟨s, hs⟩ := spread_eq "\x7b" "\x7d" k (prettyMembers (k + 1) members)
    rw [prettyAt, hs, String.toList_append]
    exact ⟨'\x7b', _, rfl, by decide, by decide⟩

theorem readValue_blank (bound d : ℕ) (s : List Char) : readValue bound d (' ' :: s) = readValue bound d s := by
  have hgap : dropGap (' ' :: s) = dropGap s := rfl
  unfold readValue
  rw [hgap]

theorem readValue_bracket (bound d : ℕ) (s : List Char) :
    readValue bound (d + 1) ('[' :: s) = readItems (readValue bound d) bound true [] s := by
  rw [readValue, dropGap_cons (by decide)]
  rfl

theorem readValue_brace (bound d : ℕ) (s : List Char) :
    readValue bound (d + 1) ('\x7b' :: s) = readMembers bound (readValue bound d) bound true [] s := by
  rw [readValue, dropGap_cons (by decide)]
  rfl

/-- **A list is read from its text** if its items are. -/
theorem readValue_arr {bound d k : ℕ} {js : List Json} (hlen : js.length < bound)
    (hread : ∀ j ∈ js, ∀ r, EndsNumber r →
      readValue bound d ((prettyAt (k + 1) j).toList ++ r) = (Doc.ofJson j, some r))
    (hhead : ∀ j ∈ js, ∀ r, BeginsItem ((prettyAt (k + 1) j).toList ++ r)) :
    readValue bound (d + 1) ((prettyAt k (.arr js)).toList ++ rest) = (Doc.ofJson (.arr js), some rest) := by
  obtain ⟨bound, rfl⟩ := Nat.exists_eq_succ_of_ne_zero (Nat.ne_of_gt (Nat.lt_of_le_of_lt (Nat.zero_le _) hlen))
  cases js with
  | nil =>
    have htext : (prettyAt k (.arr [])).toList = ['[', ']'] := by simp [prettyAt, prettyItems, spread]
    rw [htext, List.cons_append, readValue_bracket]
    rfl
  | cons j js =>
    have hvalue := hread j List.mem_cons_self _ (endsNumber_moreLines (k + 1) k
      ((prettyItems (k + 1) js).map String.toList) (']' :: rest))
    have hfirst := readItems_first (hhead j List.mem_cons_self _) hvalue (k + 1) bound []
    have hmore := readItems_moreLines (fun j hj => hread j (List.mem_cons_of_mem _ hj))
      (fun j hj => hhead j (List.mem_cons_of_mem _ hj)) (by simpa using hlen) [Doc.ofJson j] k rest
    rw [hmore] at hfirst
    rw [prettyAt, prettyItems, toList_spread]
    have hopen : "[".toList = ['['] := rfl
    have hclose : "]".toList = [']'] := rfl
    rw [hopen, hclose, List.singleton_append, List.cons_append, readValue_bracket]
    simpa [Doc.ofJson, Doc.ofItems] using hfirst

/-- **An object is read from its text** if its members are. -/
theorem readValue_obj {bound d k : ℕ} {ms : List (String × Json)} (hlen : ms.length < bound)
    (hread : ∀ m ∈ ms, ∀ r, EndsNumber r →
      readValue bound d ((prettyAt (k + 1) m.2).toList ++ r) = (Doc.ofJson m.2, some r))
    (hkeys : ∀ m ∈ ms, m.1.toList.length < bound) :
    readValue bound (d + 1) ((prettyAt k (.obj ms)).toList ++ rest) = (Doc.ofJson (.obj ms), some rest) := by
  -- the blank after the colon belongs to the value
  have hread' : ∀ m ∈ ms, ∀ r, EndsNumber r →
      readValue bound d (' ' :: ((prettyAt (k + 1) m.2).toList ++ r)) = (Doc.ofJson m.2, some r) := by
    intro m hm r hr
    rw [readValue_blank, hread m hm r hr]
  have hopen : "\x7b".toList = ['\x7b'] := rfl
  have hclose : "\x7d".toList = ['\x7d'] := rfl
  cases ms with
  | nil =>
    obtain ⟨bound, rfl⟩ := Nat.exists_eq_succ_of_ne_zero (Nat.ne_of_gt hlen)
    have htext : (prettyAt k (.obj [])).toList = ['\x7b', '\x7d'] := by simp [prettyAt, prettyMembers, spread]
    rw [htext, List.cons_append, readValue_brace]
    rfl
  | cons m ms =>
    obtain ⟨key, j⟩ := m
    have hvalue := hread' (key, j) List.mem_cons_self _ (endsNumber_moreLines (k + 1) k
      ((prettyMembers (k + 1) ms).map String.toList) ('\x7d' :: rest))
    obtain ⟨n, rfl⟩ := Nat.exists_eq_succ_of_ne_zero (Nat.ne_of_gt (Nat.lt_of_le_of_lt (Nat.zero_le _) hlen))
    have hfirst := readMembers_first (hkeys (key, j) List.mem_cons_self) hvalue (k + 1) n []
    have hmore := readMembers_moreLines (fun m hm => hread' m (List.mem_cons_of_mem _ hm))
      (fun m hm => hkeys m (List.mem_cons_of_mem _ hm)) (by simpa using hlen) [(key, Doc.ofJson j)] k rest
    rw [hmore] at hfirst
    rw [prettyAt, prettyMembers, toList_spread, toList_member]
    rw [hopen, hclose, List.singleton_append, List.cons_append, readValue_brace]
    simpa [Doc.ofJson, Doc.ofMembers, memberText] using hfirst

/-! ## Lengths -/

theorem length_le_flatMap_escape (s : List Char) : s.length ≤ (s.flatMap escape).length := by
  induction s with
  | nil => simp
  | cons c s ih =>
    have hc : 0 < (escape c).length := by
      unfold escape
      repeat' split
      all_goals simp
    rw [List.flatMap_cons, List.length_append, List.length_cons]
    omega

/-- Each line takes more room than what stands on it. -/
theorem length_moreLines (depth : ℕ) (parts : List (List Char)) :
    parts.length ≤ (moreLines depth parts).length ∧ ∀ p ∈ parts, p.length ≤ (moreLines depth parts).length := by
  induction parts with
  | nil => simp
  | cons q parts ih =>
    have hlen : (moreLines depth (q :: parts)).length =
        1 + (newline depth).length + q.length + (moreLines depth parts).length := by
      simp [moreLines]
      omega
    refine ⟨?_, ?_⟩
    · rw [hlen, List.length_cons]
      omega
    · intro p hp
      rw [hlen]
      rcases List.mem_cons.1 hp with rfl | hp
      · omega
      · have := ih.2 p hp
        omega

/-- A list or an object takes more room than each of its members, and than there are members. -/
theorem length_spread (opening closing : String) (depth : ℕ) (parts : List String)
    (hopen : 0 < opening.toList.length) :
    parts.length < (spread opening closing depth parts).toList.length ∧
      ∀ p ∈ parts, p.toList.length < (spread opening closing depth parts).toList.length := by
  cases parts with
  | nil =>
    refine ⟨?_, by simp⟩
    simp only [spread, List.isEmpty_nil, if_true, String.toList_append, List.length_append, List.length_nil]
    omega
  | cons p ps =>
    obtain ⟨hcount, heach⟩ := length_moreLines (depth + 1) (ps.map String.toList)
    rw [List.length_map] at hcount
    rw [toList_spread]
    simp only [List.length_append, List.length_cons]
    have hline : 0 < (newline (depth + 1)).length := by simp [newline]
    refine ⟨by omega, ?_⟩
    intro q hq
    rcases List.mem_cons.1 hq with rfl | hq
    · omega
    · have := heach q.toList (List.mem_map_of_mem hq)
      omega

/-! ## The text of a value -/

theorem prettyItems_eq (depth : ℕ) (js : List Json) : prettyItems depth js = js.map (prettyAt depth) := by
  induction js with
  | nil => rfl
  | cons j js ih => rw [prettyItems, ih, List.map_cons]

theorem prettyMembers_eq (depth : ℕ) (ms : List (String × Json)) :
    prettyMembers depth ms = ms.map fun m => stringText m.1 ++ ": " ++ prettyAt depth m.2 := by
  induction ms with
  | nil => rfl
  | cons m ms ih => rw [prettyMembers, ih, List.map_cons]

theorem legibleItems_iff (d : ℕ) (js : List Json) : LegibleItems d js ↔ ∀ j ∈ js, Legible d j := by
  induction js with
  | nil => simp [LegibleItems]
  | cons j js ih => simp [LegibleItems, ih]

theorem legibleMembers_iff (d : ℕ) (ms : List (String × Json)) : LegibleMembers d ms ↔ ∀ m ∈ ms, Legible d m.2 := by
  induction ms with
  | nil => simp [LegibleMembers]
  | cons m ms ih =>
    rw [LegibleMembers, ih, List.forall_mem_cons]

/-- **A legible value is read from its text**, whatever follows. -/
theorem readValue_pretty (bound : ℕ) (j : Json) (d k : ℕ) (h : Legible d j)
    (hlen : (prettyAt k j).toList.length < bound) (rest : List Char) (hrest : EndsNumber rest) :
    readValue bound d ((prettyAt k j).toList ++ rest) = (Doc.ofJson j, some rest) := by
  -- by the size of the value: items and members are smaller than what they are in
  induction hsize : sizeOf j using Nat.strongRecOn generalizing j d k rest with
  | ind size ih =>
    cases j with
    | null =>
      rw [prettyAt, show "null".toList = ['n', 'u', 'l', 'l'] from rfl, List.cons_append, readValue,
        dropGap_cons (by decide)]
      simp [readWord, Doc.ofJson]
    | bool b =>
      cases b with
      | true =>
        rw [prettyAt, if_pos rfl, show "true".toList = ['t', 'r', 'u', 'e'] from rfl, List.cons_append, readValue,
          dropGap_cons (by decide)]
        simp [readWord, Doc.ofJson]
      | false =>
        rw [prettyAt, if_neg Bool.false_ne_true, show "false".toList = ['f', 'a', 'l', 's', 'e'] from rfl,
          List.cons_append, readValue, dropGap_cons (by decide)]
        simp [readWord, Doc.ofJson]
    | nat n => exact readValue_nat h bound d hrest
    | negative n => exact h.elim
    | float x => exact readValue_float h bound d hrest
    | str s =>
      rw [prettyAt, toList_stringText] at hlen ⊢
      have hkey := length_le_flatMap_escape s.toList
      simp only [List.length_cons, List.length_append] at hlen
      have hstring := readString_escaped (show s.toList.length < bound by omega) [] rest
      rw [List.cons_append, List.append_assoc, readValue, dropGap_cons (by decide)]
      simp only [List.singleton_append, readStringDoc, hstring]
      simp [Doc.ofJson]
    | arr items =>
      rw [prettyAt] at hlen
      obtain ⟨hpos, hitems⟩ := h
      rw [legibleItems_iff] at hitems
      obtain ⟨d, rfl⟩ := Nat.exists_eq_succ_of_ne_zero (Nat.ne_of_gt hpos)
      -- the bound on the text is one on the number of items and on each of their texts
      obtain ⟨hcount, heach⟩ := length_spread "[" "]" k (prettyItems (k + 1) items) (by decide)
      rw [prettyItems_eq] at *
      rw [List.length_map] at hcount
      refine readValue_arr (by omega) ?_ fun j hj r => beginsItem_pretty (hitems j hj) _ r
      intro j hj r hr
      have hitem := heach _ (List.mem_map_of_mem hj)
      have hsmaller := List.sizeOf_lt_of_mem hj
      rw [arr.sizeOf_spec] at hsize
      exact ih (sizeOf j) (by omega) j d (k + 1) (hitems j hj) (by omega) r hr rfl
    | obj members =>
      rw [prettyAt] at hlen
      obtain ⟨hpos, hmembers⟩ := h
      rw [legibleMembers_iff] at hmembers
      obtain ⟨d, rfl⟩ := Nat.exists_eq_succ_of_ne_zero (Nat.ne_of_gt hpos)
      obtain ⟨hcount, heach⟩ := length_spread "\x7b" "\x7d" k (prettyMembers (k + 1) members) (by decide)
      rw [prettyMembers_eq] at *
      have hmember : ∀ m ∈ members, m.1.toList.length + (prettyAt (k + 1) m.2).toList.length < bound := by
        intro m hm
        have hlt := heach _ (List.mem_map_of_mem hm)
        have hkey := length_le_flatMap_escape m.1.toList
        rw [toList_member, memberText, toList_stringText] at hlt
        simp only [List.length_append, List.length_cons] at hlt
        omega
      rw [List.length_map] at hcount
      refine readValue_obj (by omega) ?_ fun m hm => by have := hmember m hm; omega
      intro m hm r hr
      have hvalue := hmember m hm
      have hsmaller := List.sizeOf_lt_of_mem hm
      have hpair : sizeOf m.2 < sizeOf m := by
        cases m
        simp only [Prod.mk.sizeOf_spec]
        omega
      rw [obj.sizeOf_spec] at hsize
      exact ih (sizeOf m.2) (by omega) m.2 d (k + 1) (hmembers m hm) (by omega) r hr rfl

/-- **A legible value is what its text is read as.** -/
theorem ofText_pretty {j : Json} (h : Legible maxDepth j) : Doc.ofText j.pretty = (Doc.ofJson j, none) := by
  have hlen : (prettyAt 0 j).toList.length < j.pretty.length + 1 := by
    rw [String.length_toList]
    exact Nat.lt_succ_self _
  have hread := readValue_pretty (j.pretty.length + 1) j maxDepth 0 h hlen [] EndsNumber.nil
  rw [List.append_nil] at hread
  have hread : readValue (j.pretty.length + 1) maxDepth j.pretty.toList = (Doc.ofJson j, some []) := hread
  rw [Doc.ofText, hread]
  rfl

end CodeAtlas.Json
