import CodeAtlas.Host.Address
import Mathlib.Data.List.Basic

/-!
# Escapes

A character that may not stand in a part of an address is written as its bytes, each as a percent sign
and two hexadecimal digits. The bytes that a part stands for can be read from it: a segment that is
pushed onto a path is read back as it was, but for its tabs and line ends, which are not written.

* `Address.unescape`: the bytes that a part of an address stands for.
* `Address.written`: what `Address.push` writes for a segment.
* `Address.decoded_written_eq_iff`: **the segments that are read back as they were**.
* `Address.IsPart`, `Address.push_of_isPart`: the segments that are added to a path, and how.
-/

namespace CodeAtlas.Address

variable {isSpecial : Bool} {p : Char → Bool} {c : Char} {s t : String} {l : List String}

/-! ## Bytes -/

/-- The bytes of a text. -/
def bytes (s : String) : List UInt8 := s.toList.flatMap String.utf8EncodeChar

theorem flatMap_utf8EncodeChar_injective : Function.Injective (List.flatMap String.utf8EncodeChar) := by
  intro a b h
  have hutf8 : a.utf8Encode = b.utf8Encode := congrArg List.toByteArray h
  have hread := congrArg ByteArray.utf8Decode? hutf8
  rw [List.utf8Decode?_utf8Encode, List.utf8Decode?_utf8Encode] at hread
  exact Array.toList_inj.2 (Option.some.inj hread)

theorem bytes_injective : Function.Injective bytes := fun _ _ h =>
  String.toList_inj.1 (flatMap_utf8EncodeChar_injective h)

/-- The value of a hexadecimal digit, a small or a capital one. -/
def digitValue? (c : Char) : Option ℕ :=
  if '0' ≤ c ∧ c ≤ '9' then some (c.toNat - '0'.toNat)
  else if 'A' ≤ c ∧ c ≤ 'F' then some (c.toNat - 'A'.toNat + 10)
  else if 'a' ≤ c ∧ c ≤ 'f' then some (c.toNat - 'a'.toNat + 10)
  else none

/-- **The bytes that a part of an address stands for**: a percent sign and two hexadecimal digits are one byte, and
any other character is its own bytes. -/
def unescape : List Char → List UInt8
  | '%' :: x :: y :: rest =>
    match digitValue? x, digitValue? y with
    | some high, some low => UInt8.ofNat (16 * high + low) :: unescape rest
    | _, _ => String.utf8EncodeChar '%' ++ unescape (x :: y :: rest)
  | c :: rest => String.utf8EncodeChar c ++ unescape rest
  | [] => []

/-- The bytes of a segment of a path. -/
def decoded (s : String) : List UInt8 := unescape s.toList

theorem unescape_cons (hc : c ≠ '%') (rest : List Char) :
    unescape (c :: rest) = String.utf8EncodeChar c ++ unescape rest := by
  rw [unescape]
  intro x y r h
  exact absurd h hc

theorem digitValue?_digit {n : ℕ} (h : n < 16) : digitValue? (Nat.digitChar n).toUpper = some n := by
  have hall : ∀ n < 16, digitValue? (Nat.digitChar n).toUpper = some n := by decide
  exact hall n h

theorem unescape_encodeByte (b : UInt8) (rest : List Char) :
    unescape (encodeByte b ++ rest) = b :: unescape rest := by
  have hb : b.toNat < 256 := b.toNat_lt
  have hhigh := digitValue?_digit (show b.toNat / 16 < 16 by omega)
  have hlow := digitValue?_digit (show b.toNat % 16 < 16 by omega)
  have hsum : 16 * (b.toNat / 16) + b.toNat % 16 = b.toNat := by omega
  simp only [encodeByte, List.cons_append, List.nil_append]
  rw [unescape, hhigh, hlow]
  simp only [hsum, UInt8.ofNat_toNat]

theorem unescape_flatMap_encodeByte (l : List UInt8) (rest : List Char) :
    unescape (l.flatMap encodeByte ++ rest) = l ++ unescape rest := by
  induction l with
  | nil => rfl
  | cons b l ih => rw [List.flatMap_cons, List.append_assoc, unescape_encodeByte, ih, List.cons_append]

/-- Where percent signs are escaped themselves, every character is read back. -/
theorem unescape_encodeChar (hp : p '%' = true) (c : Char) (rest : List Char) :
    unescape (encodeChar p c ++ rest) = String.utf8EncodeChar c ++ unescape rest := by
  unfold encodeChar
  split_ifs with h
  · exact unescape_flatMap_encodeByte _ rest
  · apply unescape_cons
    rintro rfl
    simp [hp] at h

theorem unescape_encoded (hp : p '%' = true) (l : List Char) :
    unescape (l.flatMap (encodeChar p)) = l.flatMap String.utf8EncodeChar := by
  induction l with
  | nil => rfl
  | cons c l ih => rw [List.flatMap_cons, unescape_encodeChar hp, ih, List.flatMap_cons]

/-! ## What is written -/

/-- What is written for a segment that is pushed onto a path. -/
def written (isSpecial : Bool) (s : String) : String :=
  encodeText (inSegment isSpecial) (s.toList.filter (!isTabOrLineEnd ·))

theorem decoded_written (isSpecial : Bool) (s : String) :
    decoded (written isSpecial s) = (s.toList.filter (!isTabOrLineEnd ·)).flatMap String.utf8EncodeChar := by
  have hpercent : inSegment isSpecial '%' = true := by cases isSpecial <;> decide
  unfold decoded written encodeText
  rw [String.toList_ofList, unescape_encoded hpercent]

/-- **A segment is read back as it was** exactly if it has no tab and no line end. -/
theorem decoded_written_eq_iff :
    decoded (written isSpecial s) = bytes s ↔ ∀ c ∈ s.toList, isTabOrLineEnd c = false := by
  unfold bytes
  rw [decoded_written, flatMap_utf8EncodeChar_injective.eq_iff, List.filter_eq_self]
  simp only [Bool.not_eq_true']

/-! ## Dots -/

/-- Lower case changes nothing but capital letters. -/
theorem toLower_cases (c : Char) :
    c.toLower = c ∨ 'A'.toNat ≤ c.toNat ∧ c.toNat ≤ 'Z'.toNat ∧ c.toLower.toNat = c.toNat + 32 := by
  by_cases h : c.val ≥ 'A'.val ∧ c.val ≤ 'Z'.val
  · right
    have hlow : 'A'.toNat ≤ c.toNat := h.1
    have hhigh : c.toNat ≤ 'Z'.toNat := h.2
    have hlower : c.toLower.toNat = (c.val + ('a'.val - 'A'.val)).toNat := by
      unfold Char.toLower
      rw [dif_pos h]
      rfl
    have hbound : c.toNat + 32 < 2 ^ 32 := by
      simp only [Char.reduceToNat] at hhigh
      omega
    refine ⟨hlow, hhigh, ?_⟩
    rw [hlower, UInt32.toNat_add]
    exact Nat.mod_eq_of_lt hbound
  · left
    unfold Char.toLower
    rw [dif_neg h]

theorem eq_of_toLower_eq {d : Char} (h : c.toLower = d) (hd : d.toNat < 'a'.toNat) : c = d := by
  rcases toLower_cases c with hsame | ⟨hlow, -, hshift⟩
  · rw [← hsame, h]
  · rw [h] at hshift
    simp only [Char.reduceToNat] at hd hlow
    omega

theorem digitValue?_of_toLower_e (h : c.toLower = 'e') : digitValue? c = some 14 := by
  rcases toLower_cases c with hsame | ⟨-, -, hshift⟩
  · obtain rfl : c = 'e' := hsame.symm.trans h
    rfl
  · obtain rfl : c = 'E' := by
      rw [h] at hshift
      apply Char.toNat_inj.1
      simp only [Char.reduceToNat] at hshift ⊢
      omega
    rfl

/-- The byte of a dot. -/
def dot : UInt8 := 46

/-- A dot is read as one. -/
theorem unescape_dot {l w : List Char} (h : l.map Char.toLower = '.' :: w) :
    ∃ r, r.map Char.toLower = w ∧ unescape l = dot :: unescape r := by
  obtain ⟨c, r, rfl, hc, hr⟩ := List.map_eq_cons_iff.1 h
  obtain rfl := eq_of_toLower_eq hc (by decide)
  exact ⟨r, hr, unescape_cons (by decide) r⟩

/-- So is an escaped one. -/
theorem unescape_escapedDot {l w : List Char} (h : l.map Char.toLower = '%' :: '2' :: 'e' :: w) :
    ∃ r, r.map Char.toLower = w ∧ unescape l = dot :: unescape r := by
  obtain ⟨c, l₁, rfl, hc, h₁⟩ := List.map_eq_cons_iff.1 h
  obtain ⟨x, l₂, rfl, hx, h₂⟩ := List.map_eq_cons_iff.1 h₁
  obtain ⟨y, r, rfl, hy, hr⟩ := List.map_eq_cons_iff.1 h₂
  obtain rfl := eq_of_toLower_eq hc (by decide)
  obtain rfl := eq_of_toLower_eq hx (by decide)
  have htwo : digitValue? '2' = some 2 := rfl
  refine ⟨r, hr, ?_⟩
  rw [unescape, htwo, digitValue?_of_toLower_e hy]
  rfl

/-- One dot and nothing else, escaped or not. -/
theorem unescape_singleDot {l : List Char}
    (h : l.map Char.toLower = ".".toList ∨ l.map Char.toLower = "%2e".toList) : unescape l = [dot] := by
  have hend : ∀ r : List Char, r.map Char.toLower = [] → unescape r = [] := by
    intro r hr
    obtain rfl := List.map_eq_nil_iff.1 hr
    rfl
  rcases h with h | h
  · obtain ⟨r, hr, hl⟩ := unescape_dot h
    rw [hl, hend r hr]
  · obtain ⟨r, hr, hl⟩ := unescape_escapedDot h
    rw [hl, hend r hr]

/-- **What is read as a directory itself** is a dot, escaped or not. -/
theorem decoded_of_isSingleDot (h : isSingleDot s = true) : decoded s = bytes "." := by
  have hform : s.toList.map Char.toLower = ".".toList ∨ s.toList.map Char.toLower = "%2e".toList := by
    simpa only [isSingleDot, List.contains_iff_mem, List.mem_cons, List.not_mem_nil, or_false, ← String.toList_inj,
      String.toList_ofList] using h
  exact unescape_singleDot hform

/-- **What is read as the directory above** is two dots, each of them escaped or not. -/
theorem decoded_of_isDoubleDot (h : isDoubleDot s = true) : decoded s = bytes ".." := by
  have hform : s.toList.map Char.toLower = "..".toList ∨ s.toList.map Char.toLower = "%2e%2e".toList ∨
      s.toList.map Char.toLower = ".%2e".toList ∨ s.toList.map Char.toLower = "%2e.".toList := by
    simpa only [isDoubleDot, List.contains_iff_mem, List.mem_cons, List.not_mem_nil, or_false, ← String.toList_inj,
      String.toList_ofList] using h
  have hfirst : ∃ r, unescape s.toList = dot :: unescape r ∧
      (r.map Char.toLower = ".".toList ∨ r.map Char.toLower = "%2e".toList) := by
    rcases hform with h | h | h | h
    · obtain ⟨r, hr, hs⟩ := unescape_dot h
      exact ⟨r, hs, .inl hr⟩
    · obtain ⟨r, hr, hs⟩ := unescape_escapedDot h
      exact ⟨r, hs, .inr hr⟩
    · obtain ⟨r, hr, hs⟩ := unescape_dot h
      exact ⟨r, hs, .inr hr⟩
    · obtain ⟨r, hr, hs⟩ := unescape_escapedDot h
      exact ⟨r, hs, .inl hr⟩
  obtain ⟨r, hs, hr⟩ := hfirst
  show unescape s.toList = bytes ".."
  rw [hs, unescape_singleDot hr]
  rfl

/-! ## Pushing -/

/-- The names that a directory has for itself and for the one above it. -/
def isDots (s : String) : Bool := s = "." || s = ".."

/-- **A part of a path**: a segment that names something in a directory and is read back as it was. -/
structure IsPart (s : String) : Prop where
  ne_empty : s ≠ ""
  not_dots : isDots s = false
  readBack : ∀ isSpecial, decoded (written isSpecial s) = bytes s

theorem isPart_iff : IsPart s ↔ s ≠ "" ∧ isDots s = false ∧ s.toList.any isTabOrLineEnd = false := by
  have hclean : s.toList.any isTabOrLineEnd = false ↔ ∀ c ∈ s.toList, isTabOrLineEnd c = false := by
    simp only [List.any_eq_false, Bool.not_eq_true]
  rw [hclean]
  constructor
  · intro h
    exact ⟨h.ne_empty, h.not_dots, decoded_written_eq_iff.1 (h.readBack true)⟩
  · rintro ⟨hs, hdots, hclean⟩
    exact ⟨hs, hdots, fun _ => decoded_written_eq_iff.2 hclean⟩

instance (s : String) : Decidable (IsPart s) := decidable_of_iff' _ isPart_iff

namespace IsPart

variable (h : IsPart s)

include h

theorem written_ne_empty : written isSpecial s ≠ "" := by
  intro hw
  have hbytes : bytes s = bytes "" := by
    rw [← h.readBack isSpecial, hw]
    rfl
  exact h.ne_empty (bytes_injective hbytes)

/-- What has been written for a part is no single empty segment. -/
theorem append_written_ne (l : List String) : l ++ [written isSpecial s] ≠ [""] := by
  intro hempty
  have hlast := congrArg List.getLast? hempty
  rw [List.getLast?_concat, List.getLast?_singleton] at hlast
  exact h.written_ne_empty (Option.some.inj hlast)

theorem not_isSingleDot : isSingleDot (written isSpecial s) = false := by
  rw [← Bool.not_eq_true]
  intro hdot
  have hs : s = "." := bytes_injective ((h.readBack isSpecial).symm.trans (decoded_of_isSingleDot hdot))
  exact absurd h.not_dots (by rw [hs]; decide)

theorem not_isDoubleDot : isDoubleDot (written isSpecial s) = false := by
  rw [← Bool.not_eq_true]
  intro hdot
  have hs : s = ".." := bytes_injective ((h.readBack isSpecial).symm.trans (decoded_of_isDoubleDot hdot))
  exact absurd h.not_dots (by rw [hs]; decide)

end IsPart

theorem push_of_isDots (h : isDots s = true) : push isSpecial l s = l := by
  unfold isDots at h
  unfold push
  rw [if_pos h]

/-- **A part is added at the end**, in place of a segment that is empty and the only one. -/
theorem push_of_isPart (h : IsPart s) :
    push isSpecial l s = (if l = [""] then [] else l) ++ [written isSpecial s] := by
  have hdots : ¬(decide (s = ".") || decide (s = "..")) = true := by
    rw [Bool.not_eq_true]
    exact h.not_dots
  have hadd (path : List String) : addSegment path (written isSpecial s) false = written isSpecial s :: path := by
    unfold addSegment
    rw [h.not_isDoubleDot, h.not_isSingleDot]
    rfl
  have hpush : push isSpecial l s =
      (addSegment (if l = [""] then [] else l.reverse) (written isSpecial s) false).reverse := by
    unfold push
    rw [if_neg hdots]
    rfl
  rw [hpush, hadd, List.reverse_cons]
  split_ifs <;> simp

/-- **Segments are added one after the other**, without those that are dots: only a path that is a single empty
segment would be replaced, and no path with a part at its end is one. -/
theorem foldl_push {segments : List String} (hl : l ≠ [""]) (h : ∀ s ∈ segments, isDots s = true ∨ IsPart s) :
    segments.foldl (push isSpecial) l = l ++ (segments.filter (!isDots ·)).map (written isSpecial) := by
  induction segments generalizing l with
  | nil => simp
  | cons s segments ih =>
    rw [List.forall_mem_cons] at h
    rw [List.foldl_cons]
    rcases h.1 with hdots | hpart
    · rw [push_of_isDots hdots, ih hl h.2, List.filter_cons_of_neg (by simp [hdots])]
    · rw [push_of_isPart hpart, if_neg hl, ih (hpart.append_written_ne l) h.2,
        List.filter_cons_of_pos (by simp [hpart.not_dots]), List.map_cons, List.append_assoc, List.singleton_append]

/-! ## Segments -/

/-- The characters that end a segment. -/
def endsSegment (c : Char) : Bool := c = '/' || c = '?' || c = '#'

/-- **A text stays a single segment** where it is written: it has no slash, no question mark and no number sign. -/
def IsSegment (s : String) : Prop := ∀ c ∈ s.toList, endsSegment c = false

theorem not_endsSegment_of_mem_encodeByte {b : UInt8} (h : c ∈ encodeByte b) : endsSegment c = false := by
  have hdigit : ∀ n < 16, endsSegment (Nat.digitChar n).toUpper = false := by decide
  have hb : b.toNat < 256 := b.toNat_lt
  simp only [encodeByte, List.mem_cons, List.not_mem_nil, or_false] at h
  rcases h with rfl | rfl | rfl
  · decide
  · exact hdigit _ (by omega)
  · exact hdigit _ (by omega)

/-- What is escaped ends no segment. -/
theorem isSegment_encodeText {l : List Char} (h : ∀ c ∈ l, endsSegment c = true → p c = true) :
    IsSegment (encodeText p l) := by
  intro d hd
  unfold encodeText at hd
  rw [String.toList_ofList] at hd
  obtain ⟨c, hc, hd⟩ := List.mem_flatMap.1 hd
  unfold encodeChar at hd
  split_ifs at hd with hescaped
  · obtain ⟨b, -, hb⟩ := List.mem_flatMap.1 hd
    exact not_endsSegment_of_mem_encodeByte hb
  · obtain rfl := List.mem_singleton.1 hd
    rw [← Bool.not_eq_true]
    intro hends
    exact hescaped (by simp [h d hc hends])

theorem isSegment_written (isSpecial : Bool) (s : String) : IsSegment (written isSpecial s) := by
  apply isSegment_encodeText
  intro c _ hends
  simp only [endsSegment, Bool.or_eq_true, decide_eq_true_eq] at hends
  rcases hends with (rfl | rfl) | rfl <;> cases isSpecial <;> decide

/-! ## The path of an address that is read -/

theorem slash_notMem_of_mem_splitPath {s : List Char} : ∀ piece ∈ splitPath isSpecial s, '/' ∉ piece := by
  unfold splitPath
  induction s with
  | nil => simp
  | cons c s ih =>
    rw [List.foldr_cons]
    split_ifs with hc
    · simpa using ih
    · have hslash : '/' ≠ c := by
        rintro rfl
        simp at hc
      split
      · rename_i piece pieces hpieces
        rw [hpieces, List.forall_mem_cons] at ih
        rw [List.forall_mem_cons]
        exact ⟨by simp [hslash, ih.1], ih.2⟩
      · simpa using hslash

theorem addSegment_of_isSegment {path : List String} {more : Bool} (hs : IsSegment s)
    (hpath : ∀ t ∈ path, IsSegment t) : ∀ t ∈ addSegment path s more, IsSegment t := by
  have hdrop : ∀ t ∈ path.drop 1, IsSegment t := fun t ht => hpath t (List.mem_of_mem_drop ht)
  have hempty : IsSegment "" := by simp [IsSegment]
  unfold addSegment
  split_ifs <;> simp_all

theorem isSegment_of_mem_readSegments {pieces : List (List Char)} {path : List String}
    (hpieces : ∀ piece ∈ pieces, '/' ∉ piece) (hpath : ∀ t ∈ path, IsSegment t) :
    ∀ t ∈ readSegments path pieces, IsSegment t := by
  have hpiece : ∀ piece : List Char, '/' ∉ piece → IsSegment (encodeText inPath piece) := by
    intro piece hslash
    apply isSegment_encodeText
    intro c hc hends
    simp only [endsSegment, Bool.or_eq_true, decide_eq_true_eq] at hends
    rcases hends with (rfl | rfl) | rfl
    · exact absurd hc hslash
    · decide
    · decide
  fun_induction readSegments path pieces with
  | case1 path => simpa using hpath
  | case2 path piece =>
    intro t ht
    exact addSegment_of_isSegment (hpiece piece (hpieces piece (by simp))) hpath t (List.mem_reverse.1 ht)
  | case3 path piece pieces hne ih =>
    rw [List.forall_mem_cons] at hpieces
    exact ih hpieces.2 (addSegment_of_isSegment (hpiece piece hpieces.1) hpath)

theorem isSegment_of_mem_readPath {s : List Char} : ∀ t ∈ readPath isSpecial s, IsSegment t := by
  have hpieces : ∀ piece ∈ splitPath isSpecial s, '/' ∉ piece := slash_notMem_of_mem_splitPath
  have hempty : IsSegment "" := by simp [IsSegment]
  unfold readPath
  split
  · simp
  · split_ifs <;> simp [hempty]
  · rename_i rest _ hrest
    rw [hrest, List.forall_mem_cons] at hpieces
    exact isSegment_of_mem_readSegments hpieces.2 (by simp)
  · exact isSegment_of_mem_readSegments hpieces (by simp)

/-- **The segments of an address that is read** stay single segments. -/
theorem isSegment_of_ofText {a : Address} (h : ofText s = .ok a) (hl : a.path = .segments l) :
    ∀ t ∈ l, IsSegment t := by
  have hbind : ∀ {x : Except Fault String} {f : String → Except Fault Address},
      x >>= f = .ok a → ∃ b, f b = .ok a := by
    intro x f hx
    cases x with
    | error e => cases hx
    | ok b => exact ⟨b, hx⟩
  -- whatever stands before the path, what is left is read as one
  have hread : ∃ special rest, a.path = .segments (readPath special rest) ∨ ∃ t, a.path = .opaqueText t := by
    unfold ofText at h
    simp only at h
    split at h
    · cases h
    · split_ifs at h
      · obtain ⟨b, hb⟩ := hbind h
        obtain rfl := Except.ok.inj hb
        exact ⟨_, _, .inl rfl⟩
      · split at h
        · obtain ⟨b, hb⟩ := hbind h
          obtain rfl := Except.ok.inj hb
          exact ⟨_, _, .inl rfl⟩
        · obtain rfl := Except.ok.inj h
          exact ⟨_, _, .inl rfl⟩
        · obtain rfl := Except.ok.inj h
          exact ⟨_, _, .inl rfl⟩
      · split at h
        · obtain ⟨b, hb⟩ := hbind h
          obtain rfl := Except.ok.inj hb
          exact ⟨_, _, .inl rfl⟩
        · obtain rfl := Except.ok.inj h
          exact ⟨_, _, .inl rfl⟩
        · obtain rfl := Except.ok.inj h
          exact ⟨true, [], .inr ⟨_, rfl⟩⟩
  obtain ⟨special, rest, hpath | ⟨t, hpath⟩⟩ := hread
  · obtain rfl := AddressPath.segments.inj (hl.symm.trans hpath)
    exact isSegment_of_mem_readPath
  · rw [hl] at hpath
    cases hpath

end CodeAtlas.Address
