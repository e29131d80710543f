import CodeAtlas.Generation.Reply
import Mathlib.Data.List.Basic
import Mathlib.Data.List.TakeWhile

/-!
# JSON within a reply

The JSON in a reply begins at the first opening brace or bracket and ends at the last closing
one of its kind. The two are looked for on their own, so it does not matter how braces and
brackets are nested between them, or in which strings they stand.

* `Enclosed`, `FirstUnclosed`: a text from an opening brace or bracket to one that closes it, and a text without that.
* `jsonPart?_append`, `upToLast?_append`: what is found from the front and from the end.
* `extractJson_eq_none_iff`, `extractJson_eq_some_iff`: **where JSON is found.**
* `json_located`: this, and **what stands around the JSON does not matter.**
-/

namespace CodeAtlas

/-- An opening brace or bracket. -/
def isOpener (c : Char) : Bool := c = '{' || c = '['

/-- What closes an opening brace or bracket. -/
def closerOf (opener : Char) : Char := if opener = '{' then '}' else ']'

/-- **A text from an opening brace or bracket to a closing one of its kind**, with anything between them. -/
structure Enclosed (opener : Char) (s : String) : Prop where
  opens : isOpener opener = true
  shape : ∃ inner, s.toList = opener :: (inner ++ [closerOf opener])

/-- A text without an opening brace or bracket. -/
def NoOpener (s : String) : Prop := ∀ c ∈ s.toList, isOpener c = false

/-- The first opening brace or bracket of a text is not closed after it. -/
def FirstUnclosed (s : String) : Prop :=
  ∃ before opener after, s.toList = before ++ opener :: after ∧ (∀ c ∈ before, isOpener c = false) ∧
    isOpener opener = true ∧ closerOf opener ∉ after

variable {a s b : List Char} {opener close : Char} {text j : String}

/-- Nothing closes itself. -/
theorem closerOf_ne (h : isOpener opener = true) : closerOf opener ≠ opener := by
  simp only [isOpener, Bool.or_eq_true, decide_eq_true_eq] at h
  rcases h with rfl | rfl <;> decide

/-! ## From the end -/

/-- **What is found from the end** is the text up to a closing character that no other one follows. -/
theorem upToLast?_append (h : close ∉ b) : upToLast? close (a ++ close :: b) = some (a ++ [close]) := by
  have hafter : ∀ c ∈ b.reverse, decide (c ≠ close) = true := fun c hc =>
    decide_eq_true fun he => h (he ▸ List.mem_reverse.1 hc)
  have hfound : (a ++ close :: b).reverse.dropWhile (· ≠ close) = close :: a.reverse := by
    rw [List.reverse_append, List.reverse_cons, List.append_assoc, List.dropWhile_append_of_pos hafter]
    exact List.dropWhile_cons_of_neg (by simp)
  unfold upToLast?
  rw [hfound]
  simp

theorem upToLast?_eq_none (h : close ∉ s) : upToLast? close s = none := by
  have hnone : s.reverse.dropWhile (· ≠ close) = [] :=
    List.dropWhile_eq_nil_iff.2 fun c hc => decide_eq_true fun he => h (he ▸ List.mem_reverse.1 hc)
  unfold upToLast?
  rw [hnone]

/-- What stands in a text stands there for the last time. -/
theorem exists_last (h : close ∈ s) : ∃ a b, s = a ++ close :: b ∧ close ∉ b := by
  obtain ⟨b, a, hs, hb⟩ := List.eq_append_cons_of_mem (List.mem_reverse.2 h)
  refine ⟨a.reverse, b.reverse, ?_, fun hmem => hb (List.mem_reverse.1 hmem)⟩
  rw [← List.reverse_reverse s, hs]
  simp

/-! ## From the front -/

theorem dropWhile_eq (s : List Char) :
    s.dropWhile (fun c => c ≠ '{' && c ≠ '[') = s.dropWhile (fun c => !isOpener c) := by
  congr 1
  funext c
  simp [isOpener]

/-- **What is found from the front** is what begins with the first opening character, to be searched from its end. -/
theorem jsonPart?_append (ha : ∀ c ∈ a, isOpener c = false) (ho : isOpener opener = true) :
    jsonPart? (a ++ opener :: s) = upToLast? (closerOf opener) (opener :: s) := by
  have hfound : (a ++ opener :: s).dropWhile (fun c => !isOpener c) = opener :: s := by
    rw [List.dropWhile_append_of_pos fun c hc => by rw [ha c hc, Bool.not_false]]
    exact List.dropWhile_cons_of_neg (by simp [ho])
  unfold jsonPart?
  rw [dropWhile_eq, hfound]
  rfl

theorem jsonPart?_eq_none (h : ∀ c ∈ s, isOpener c = false) : jsonPart? s = none := by
  have hnone : s.dropWhile (fun c => !isOpener c) = [] :=
    List.dropWhile_eq_nil_iff.2 fun c hc => by rw [h c hc, Bool.not_false]
  unfold jsonPart?
  rw [dropWhile_eq, hnone]

/-- A text has no opening character, or there is a first one. -/
theorem opener_cases (s : List Char) :
    (∀ c ∈ s, isOpener c = false) ∨
      ∃ a opener r, s = a ++ opener :: r ∧ (∀ c ∈ a, isOpener c = false) ∧ isOpener opener = true := by
  induction s with
  | nil => exact Or.inl fun c hc => nomatch hc
  | cons c s ih =>
    cases hc : isOpener c with
    | true => exact Or.inr ⟨[], c, s, rfl, List.forall_mem_nil _, hc⟩
    | false =>
      rcases ih with hnone | ⟨a, opener, r, rfl, ha, ho⟩
      · exact Or.inl (List.forall_mem_cons.2 ⟨hc, hnone⟩)
      · exact Or.inr ⟨c :: a, opener, r, rfl, List.forall_mem_cons.2 ⟨hc, ha⟩, ho⟩

/-! ## Where JSON is found -/

/-- Around an enclosed text, without an opening character before it and without one that closes it after it, that
text is found. -/
theorem extractJson_append {before after : String} (hbefore : NoOpener before) (hj : Enclosed opener j)
    (hafter : closerOf opener ∉ after.toList) : extractJson (before ++ j ++ after) = some j := by
  obtain ⟨ho, inner, hinner⟩ := hj
  have hchars : (before ++ j ++ after).toList =
      before.toList ++ opener :: (inner ++ closerOf opener :: after.toList) := by
    rw [String.toList_append, String.toList_append, hinner]
    simp
  have hlast : upToLast? (closerOf opener) (opener :: (inner ++ closerOf opener :: after.toList)) = some j.toList := by
    rw [hinner]
    exact upToLast?_append (a := opener :: inner) hafter
  rw [extractJson, hchars, jsonPart?_append hbefore ho, hlast, Option.map_some, String.ofList_toList]

/-- Without an opening character, or without one that closes the first one after it, nothing is found. -/
theorem extractJson_eq_none (h : NoOpener text ∨ FirstUnclosed text) : extractJson text = none := by
  rw [extractJson, Option.map_eq_none_iff]
  rcases h with hnone | ⟨before, opener, after, htext, hbefore, ho, hafter⟩
  · exact jsonPart?_eq_none hnone
  · rw [htext, jsonPart?_append hbefore ho]
    refine upToLast?_eq_none fun hmem => ?_
    rcases List.mem_cons.1 hmem with he | hmem
    · exact closerOf_ne ho he
    · exact hafter hmem

/-- **Every text is of one of the two sorts.** -/
theorem located_cases (text : String) :
    (NoOpener text ∨ FirstUnclosed text) ∨
      ∃ before opener j after, text = before ++ j ++ after ∧ NoOpener before ∧ Enclosed opener j ∧
        closerOf opener ∉ after.toList := by
  rcases opener_cases text.toList with hnone | ⟨a, opener, r, htext, ha, ho⟩
  · exact Or.inl (Or.inl hnone)
  by_cases hclose : closerOf opener ∈ r
  · obtain ⟨inner, b, rfl, hb⟩ := exists_last hclose
    refine Or.inr ⟨String.ofList a, opener, String.ofList (opener :: (inner ++ [closerOf opener])), String.ofList b, ?_,
      ?_, ⟨ho, inner, String.toList_ofList⟩, by rwa [String.toList_ofList]⟩
    · rw [← String.toList_inj, htext]
      simp
    · rwa [NoOpener, String.toList_ofList]
  · exact Or.inl (Or.inr ⟨a, opener, r, htext, ha, ho, hclose⟩)

/-- **Nothing is found** just where there is no opening character, or none that closes the first one after it. -/
theorem extractJson_eq_none_iff : extractJson text = none ↔ NoOpener text ∨ FirstUnclosed text := by
  refine ⟨fun hnone => ?_, extractJson_eq_none⟩
  rcases located_cases text with h | ⟨before, opener, j, after, rfl, hbefore, hj, hafter⟩
  · exact h
  · rw [extractJson_append hbefore hj hafter] at hnone
    cases hnone

/-- **What is found** goes from the first opening character of the text to the last one that closes it. -/
theorem extractJson_eq_some_iff :
    extractJson text = some j ↔ ∃ before opener after, text = before ++ j ++ after ∧ NoOpener before ∧
      Enclosed opener j ∧ closerOf opener ∉ after.toList := by
  constructor
  · intro hfound
    rcases located_cases text with h | ⟨before, opener, j', after, rfl, hbefore, hj, hafter⟩
    · rw [extractJson_eq_none h] at hfound
      cases hfound
    · rw [extractJson_append hbefore hj hafter] at hfound
      obtain rfl := Option.some.inj hfound
      exact ⟨before, opener, after, rfl, hbefore, hj, hafter⟩
  · rintro ⟨before, opener, after, rfl, hbefore, hj, hafter⟩
    exact extractJson_append hbefore hj hafter

/-- An enclosed text is found in itself. -/
theorem extractJson_self (hj : Enclosed opener j) : extractJson j = some j := by
  have hself : extractJson ("" ++ j ++ "") = some j := extractJson_append (List.forall_mem_nil _) hj List.not_mem_nil
  simpa using hself

/-- **The JSON in a reply.** It is found just where an opening brace or bracket has one that closes it after it, and
goes from the first of the former to the last of the latter; in what is found, the same is found again. So prose and
fences around an enclosed text do not matter, as long as nothing is opened before it and its kind is not closed after
it: for every type, a reply with them is read as the enclosed text itself, whatever stands in it. -/
theorem json_located (text : String) :
    (extractJson text = none ↔ NoOpener text ∨ FirstUnclosed text) ∧
    (∀ j, extractJson text = some j ↔ ∃ before opener after, text = before ++ j ++ after ∧ NoOpener before ∧
      Enclosed opener j ∧ closerOf opener ∉ after.toList) ∧
    (∀ j, extractJson text = some j → extractJson j = some j) ∧
    ∀ before opener after, NoOpener before → Enclosed opener text → closerOf opener ∉ after.toList →
      ∀ (α : Type) (decode : Json.Decoder α),
        parseStructured decode (before ++ text ++ after) = parseStructured decode text := by
  refine ⟨extractJson_eq_none_iff, fun j => extractJson_eq_some_iff, fun j hfound => ?_, ?_⟩
  · obtain ⟨before, opener, after, -, -, hj, -⟩ := extractJson_eq_some_iff.1 hfound
    exact extractJson_self hj
  · intro before opener after hbefore htext hafter α decode
    unfold parseStructured
    rw [extractJson_append hbefore htext hafter, extractJson_self htext]

/-- A list of brackets between fences, in prose that opens more than it closes. -/
theorem json_located_fenced :
    let before := "Voilà :\n\x60\x60\x60json\n"
    let list := "[\"]\", \"\x7b[\"]"
    let after := "\n\x60\x60\x60\n(voici [tout\x7d)"
    NoOpener before ∧ Enclosed '[' list ∧ closerOf '[' ∉ after.toList ∧
      (parseStructured (Decode.list Decode.str) (before ++ list ++ after)).toOption = some ["]", "\x7b["] := by
  intro before list after
  have hprose : before.toList.all (fun c => !isOpener c) = true := by decide +kernel
  have hbefore : NoOpener before := fun c hc => by simpa using List.all_eq_true.1 hprose c hc
  have hlist : Enclosed '[' list := ⟨rfl, "\"]\", \"\x7b[\"".toList, by decide +kernel⟩
  have hafter : closerOf '[' ∉ after.toList := by decide +kernel
  refine ⟨hbefore, hlist, hafter, ?_⟩
  rw [(json_located list).2.2.2 before '[' after hbefore hlist hafter]
  decide +kernel

end CodeAtlas
