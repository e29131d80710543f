import CodeAtlas.Proofs.Text.Occurrences
import CodeAtlas.Search.Rank
import CodeAtlas.Summary.Features
import CodeAtlas.Summary.Structure
import CodeAtlas.Summary.TechStack

/-!
# Control tokens in prompts

A prompt is put together from texts of a repository and fixed words between them. No
control token has a blank, a line feed or a quotation mark, and the fixed words begin
and end with such a character, so that no token reaches over the joint (`Sealed`). A
prompt has a token only where one of the texts has.

* `TokenFree.close`, `Sealed.append`, `sealed_join`: texts and fixed words in a row.
* `fileDigest_sealed`, `path_tokenFree`: the section of the files has no token exactly
  if their paths have none.
* `question_iff`: nor has a question with that section in it.
* `prompts_tokenFree`: **the requests about a repository and about a file have no token
  exactly if its paths, and the language of the file, have none.** All other texts are
  sanitized.
-/

namespace CodeAtlas

/-- No control token stands in a text. -/
def TokenFree (s : String) : Prop := ∀ t ∈ controlTokens, Text.contains s t = false

instance (s : String) : Decidable (TokenFree s) :=
  inferInstanceAs (Decidable (∀ t ∈ controlTokens, Text.contains s t = false))

/-- No message of a request has a control token. -/
def Request.TokenFree (r : Request) : Prop := ∀ m ∈ r.messages, CodeAtlas.TokenFree m.content

/-- The characters of the control tokens. -/
def tokenChars : List Char := ['<', '|', 'i', 'm', '_', 's', 't', 'a', 'r', 'e', 'n', 'd', 'o', 'f', 'x', '>']

/-- A character that no control token has. -/
def isApart (c : Char) : Bool := !tokenChars.contains c

/-- Whether a text begins with a character that no control token has. -/
def opensApart (l : List Char) : Bool := l.head?.any isApart

/-- Whether a text ends with a character that no control token has. -/
def closesApart (l : List Char) : Bool := l.getLast?.any isApart

/-- **No control token stands in a text or reaches over its end**, whatever follows. -/
def Sealed (s : String) : Prop := ∀ t, TokenFree t → TokenFree (s ++ t)

variable {a b s : String}

theorem tokenFree_iff : TokenFree s ↔ ∀ t ∈ controlTokens, ¬t.toList <:+: s.toList := by
  unfold TokenFree
  simp only [← Text.contains_iff, Bool.not_eq_true]

/-- A part of a text has no token that the text does not have. -/
theorem TokenFree.mono (h : TokenFree b) (hab : a.toList <:+: b.toList) : TokenFree a := by
  rw [tokenFree_iff] at h ⊢
  intro t ht hta
  exact h t ht (hta.trans hab)

theorem TokenFree.left (h : TokenFree (a ++ b)) : TokenFree a := by
  refine h.mono ?_
  rw [String.toList_append]
  exact List.infix_append_left

theorem TokenFree.right (h : TokenFree (a ++ b)) : TokenFree b := by
  refine h.mono ?_
  rw [String.toList_append]
  exact List.infix_append_right

theorem notMem_of_isApart {c : Char} (h : isApart c = true) {t : String} (ht : t ∈ controlTokens) :
    c ∉ t.toList := by
  have hall : ∀ t ∈ controlTokens, t.toList.all (tokenChars.contains ·) = true := by decide
  intro hc
  have hmem := List.all_eq_true.1 (hall t ht) c hc
  unfold isApart at h
  rw [hmem] at h
  cases h

/-- Every control token begins with `<`. -/
theorem tokenFree_of_notMem (h : '<' ∉ s.toList) : TokenFree s := by
  have hlt : ∀ t ∈ controlTokens, '<' ∈ t.toList := by decide
  rw [tokenFree_iff]
  intro t ht hts
  exact h (hts.subset (hlt t ht))

/-- Fixed words without `<`. -/
theorem tokenFree_words (l : List Char) (h : '<' ∉ l) : TokenFree (String.ofList l) :=
  tokenFree_of_notMem (by rwa [String.toList_ofList])

/-! ## Texts in a row -/

theorem TokenFree.append_opens (ha : TokenFree a) (hb : TokenFree b) (h : opensApart b.toList = true) :
    TokenFree (a ++ b) := by
  rw [tokenFree_iff] at ha hb ⊢
  intro t ht hts
  unfold opensApart at h
  cases hl : b.toList with
  | nil => simp [hl] at h
  | cons c l =>
    have hc : isApart c = true := by simpa [hl] using h
    rw [String.toList_append, hl] at hts
    rcases Text.infix_cut_before (notMem_of_isApart hc ht) hts with hta | htb
    · exact ha t ht hta
    · exact hb t ht (hl ▸ htb)

theorem TokenFree.append_closes (ha : TokenFree a) (hb : TokenFree b) (h : closesApart a.toList = true) :
    TokenFree (a ++ b) := by
  rw [tokenFree_iff] at ha hb ⊢
  intro t ht hts
  unfold closesApart at h
  rcases List.eq_nil_or_concat a.toList with hl | ⟨l, c, hl⟩
  · simp [hl] at h
  · rw [List.concat_eq_append] at hl
    have hc : isApart c = true := by simpa [hl] using h
    rw [String.toList_append, hl] at hts
    rcases Text.infix_cut_after (notMem_of_isApart hc ht) hts with hta | htb
    · exact ha t ht (hl ▸ hta)
    · exact hb t ht htb

/-- Fixed words are sealed if they end apart. -/
theorem sealed_words (l : List Char) (h : '<' ∉ l ∧ closesApart l = true) : Sealed (String.ofList l) := by
  intro t ht
  exact (tokenFree_words l h.1).append_closes ht (by rw [String.toList_ofList]; exact h.2)

theorem sealed_nil : Sealed "" := by
  intro t ht
  rwa [String.empty_append]

theorem Sealed.tokenFree (h : Sealed s) : TokenFree s := by
  have hs := h "" (by decide)
  rwa [String.append_empty] at hs

theorem Sealed.text (ha : Sealed a) (hb : TokenFree b) : TokenFree (a ++ b) := ha b hb

/-- Texts that are sealed are so in a row. -/
theorem Sealed.append (ha : Sealed a) (hb : Sealed b) : Sealed (a ++ b) := by
  intro t ht
  rw [String.append_assoc]
  exact ha _ (hb t ht)

/-- **Fixed words seal the text before them** if they begin and end apart. -/
theorem TokenFree.close (ha : TokenFree a) (l : List Char)
    (h : '<' ∉ l ∧ closesApart l = true ∧ opensApart l = true) : Sealed (a ++ String.ofList l) := by
  intro t ht
  rw [String.append_assoc]
  refine ha.append_opens (sealed_words l ⟨h.1, h.2.1⟩ t ht) ?_
  have ho := h.2.2
  unfold opensApart at ho ⊢
  rw [String.toList_append, String.toList_ofList]
  cases l with
  | nil => cases ho
  | cons c l => exact ho

theorem sealed_join {l : List String} (h : ∀ x ∈ l, Sealed x) : Sealed (String.join l) := by
  induction l with
  | nil => exact sealed_nil
  | cons x l ih =>
    rw [String.join_cons]
    exact (h x List.mem_cons_self).append (ih fun y hy => h y (List.mem_cons_of_mem x hy))

/-- A list of texts with fixed words between them. -/
theorem tokenFree_intercalate {texts : List String} (htexts : ∀ x ∈ texts, TokenFree x) (l : List Char)
    (h : '<' ∉ l ∧ closesApart l = true ∧ opensApart l = true) :
    TokenFree ((String.ofList l).intercalate texts) := by
  induction texts with
  | nil => exact sealed_nil.tokenFree
  | cons x texts ih =>
    cases texts with
    | nil => simpa using htexts x List.mem_cons_self
    | cons y texts =>
      rw [String.intercalate_cons_cons]
      exact (htexts x List.mem_cons_self).close l h _ (ih fun z hz => htexts z (List.mem_cons_of_mem x hz))

theorem tokenFree_toString (n : ℕ) : TokenFree (toString n) := by
  apply tokenFree_of_notMem
  intro h
  have hdigit : '<' ∈ Nat.toDigits 10 n := by rwa [← Nat.toList_repr]
  exact absurd (Nat.isDigit_of_mem_toDigits (by decide) (by decide) hdigit) (by decide)

/-! ## Requests about a repository -/

namespace Snapshot

/-- Sanitizing leaves no token in the texts of a repository. -/
structure Cleansed (s : Snapshot) : Prop where
  files : ∀ f ∈ s.files, TokenFree (sanitize (Text.truncate shownFileChars f.content))
  readme : ∀ readme, s.readme = some readme → TokenFree (sanitize (Text.truncate shownReadmeChars readme))

variable {s : Snapshot}

theorem fileSection_sealed {f : SourceFile} (hpath : TokenFree f.path)
    (htext : TokenFree (sanitize (Text.truncate shownFileChars f.content))) : Sealed (fileSection f) := by
  have hhead : TokenFree ("### " ++ f.path) := (sealed_words _ (by decide)).text hpath
  have hopen : Sealed ("### " ++ f.path ++ "\n\x60\x60\x60\n") := hhead.close _ (by decide)
  exact (hopen.text htext).close _ (by decide)

/-- **The section of the files** is sealed if their paths have no token. -/
theorem fileDigest_sealed (h : s.Cleansed) (hpaths : ∀ f ∈ s.files, TokenFree f.path) : Sealed s.fileDigest := by
  have hshown : Sealed (String.join ((s.files.take shownFiles).map fileSection)) := by
    refine sealed_join fun x hx => ?_
    obtain ⟨f, hf, rfl⟩ := List.mem_map.1 hx
    have hmem := List.mem_of_mem_take hf
    exact fileSection_sealed (hpaths f hmem) (h.files f hmem)
  refine hshown.append ?_
  split
  · exact sealed_nil
  · refine (sealed_words _ (by decide)).append (sealed_join fun x hx => ?_)
    obtain ⟨f, hf, rfl⟩ := List.mem_map.1 hx
    have hline : TokenFree ("- " ++ f.path) :=
      (sealed_words _ (by decide)).text (hpaths f (List.mem_of_mem_drop hf))
    exact hline.close _ (by decide)

/-- **Every path stands in the section of the files**, of the first files and of the
others. -/
theorem path_tokenFree (h : TokenFree s.fileDigest) {f : SourceFile} (hf : f ∈ s.files) : TokenFree f.path := by
  rw [← List.take_append_drop shownFiles s.files, List.mem_append] at hf
  rcases hf with hf | hf
  · have hsection : TokenFree (fileSection f) := h.left.mono (Text.infix_join (List.mem_map_of_mem hf))
    exact hsection.left.left.left.right
  · have hothers := h.right
    rw [if_neg (by simpa using List.ne_nil_of_mem hf)] at hothers
    have hline : TokenFree ("- " ++ f.path ++ "\n") :=
      hothers.right.mono (Text.infix_join (List.mem_map_of_mem hf))
    exact hline.left.right

theorem readmeSection_sealed (h : s.Cleansed) : Sealed s.readmeSection := by
  unfold readmeSection
  split
  · rename_i readme hreadme
    split
    · exact sealed_nil
    · have hhead : Sealed "README:\n" := sealed_words _ (by decide)
      exact (hhead.text (h.readme readme hreadme)).close _ (by decide)
  · exact sealed_nil

theorem languageSection_sealed (h : ∀ l ∈ s.languageStats, TokenFree l.1) : Sealed s.languageSection := by
  unfold languageSection
  split
  · exact sealed_nil
  · have hhead : Sealed "Language statistics: " := sealed_words _ (by decide)
    refine (hhead.text (tokenFree_intercalate ?_ _ (by decide))).close _ (by decide)
    intro x hx
    obtain ⟨l, hl, rfl⟩ := List.mem_map.1 hx
    obtain ⟨p, hp, rfl⟩ := List.mem_map.1 hl
    have hname : TokenFree p.1 := h p (List.mem_mergeSort.1 hp)
    have hopen : Sealed (p.1 ++ " (") := hname.close _ (by decide)
    exact ((hopen.text (tokenFree_toString _)).close _ (by decide)).tokenFree

theorem title_sealed (hname : TokenFree s.fullName) : Sealed ("Repository: " ++ s.fullName ++ "\n\n") := by
  have hhead : TokenFree ("Repository: " ++ s.fullName) := (sealed_words _ (by decide)).text hname
  exact hhead.close _ (by decide)

/-- **A question with the section of the files in it** has a token exactly if one of their
paths has one. What stands before that section may have the paths in it, too. -/
theorem question_iff (h : s.Cleansed) {head w₁ w₂ w₃ : String}
    (hhead : (∀ f ∈ s.files, TokenFree f.path) → Sealed head) (h₁ : Sealed w₁) (h₂ : Sealed w₂)
    (h₃ : TokenFree w₃) : TokenFree (head ++ s.fileDigest ++ w₁ ++ w₂ ++ w₃) ↔ ∀ f ∈ s.files, TokenFree f.path := by
  constructor
  · intro hs f hf
    exact path_tokenFree hs.left.left.left.right hf
  · intro hpaths
    have hfiles := (hhead hpaths).append (fileDigest_sealed h hpaths)
    exact ((hfiles.append h₁).append h₂).text h₃

end Snapshot

/-- An instruction and a question have a token where the question has one. -/
theorem Request.tokenFree_iff {r : Request} {instruction question : String}
    (hr : r.messages = [.system instruction, .user question]) (h : CodeAtlas.TokenFree instruction) :
    r.TokenFree ↔ CodeAtlas.TokenFree question := by
  unfold Request.TokenFree
  rw [hr]
  simp [h, Message.system, Message.user]

section Repository

variable {s : Snapshot}

theorem FeatureSet.request_iff (hname : TokenFree s.fullName) (hlanguages : ∀ l ∈ s.languageStats, TokenFree l.1)
    (h : s.Cleansed) : (FeatureSet.request s).TokenFree ↔ ∀ f ∈ s.files, TokenFree f.path := by
  rw [Request.tokenFree_iff rfl (tokenFree_words _ (by decide))]
  have hstart := ((Snapshot.title_sealed hname).append (Snapshot.readmeSection_sealed h)).append
    (Snapshot.languageSection_sealed hlanguages)
  exact Snapshot.question_iff h (fun _ => hstart.append (sealed_words _ (by decide))) (sealed_words _ (by decide))
    (sealed_words _ (by decide)) (tokenFree_words _ (by decide))

theorem Structure.request_iff (hname : TokenFree s.fullName) (h : s.Cleansed) :
    (Structure.request s).TokenFree ↔ ∀ f ∈ s.files, TokenFree f.path := by
  rw [Request.tokenFree_iff rfl (tokenFree_words _ (by decide))]
  have hstart := (Snapshot.title_sealed hname).append (Snapshot.readmeSection_sealed h)
  refine Snapshot.question_iff h (fun hpaths => ?_) (sealed_words _ (by decide)) (sealed_words _ (by decide))
    (tokenFree_words _ (by decide))
  -- the paths stand in a list of their own before the section of the files
  have hlist : TokenFree ("\n".intercalate (s.files.map (·.path))) := by
    refine tokenFree_intercalate (fun x hx => ?_) _ (by decide)
    obtain ⟨f, hf, rfl⟩ := List.mem_map.1 hx
    exact hpaths f hf
  exact TokenFree.close ((hstart.append (sealed_words _ (by decide))).text hlist) _ (by decide)

theorem TechStack.request_iff (hname : TokenFree s.fullName) (hlanguages : ∀ l ∈ s.languageStats, TokenFree l.1)
    (h : s.Cleansed) : (TechStack.request s).TokenFree ↔ ∀ f ∈ s.files, TokenFree f.path := by
  rw [Request.tokenFree_iff rfl (tokenFree_words _ (by decide))]
  have hstart := ((Snapshot.title_sealed hname).append (Snapshot.languageSection_sealed hlanguages)).append
    (Snapshot.readmeSection_sealed h)
  exact Snapshot.question_iff h (fun _ => hstart.append (sealed_words _ (by decide))) (sealed_words _ (by decide))
    (sealed_words _ (by decide)) (tokenFree_words _ (by decide))

end Repository

/-! ## Requests about a file -/

namespace Search.Rescore

/-- Sanitizing leaves no token in what is said of a file that was found. -/
structure Cleansed (query : String) (f : FileMatches) : Prop where
  query : TokenFree (sanitize query)
  context : TokenFree (sanitize f.context)
  listing : TokenFree (sanitize (String.join ((f.matched.take shownMatches).map matchLine)))

theorem request_iff {query : String} {f : FileMatches} (h : Cleansed query f) :
    (request query f).TokenFree ↔ TokenFree f.file.path ∧ TokenFree f.file.language := by
  have hinstruction : TokenFree ("You judge the relevance of code search results. " ++
      "Respond with ONLY a JSON object matching the schema.") :=
    (sealed_words _ (by decide)).text (tokenFree_words _ (by decide))
  rw [Request.tokenFree_iff rfl hinstruction]
  constructor
  · intro hs
    have hfile := hs.left.left.left.left
    exact ⟨hfile.left.left.right, hfile.right⟩
  · rintro ⟨hpath, hlanguage⟩
    have hhead : TokenFree ("Query: \"" ++ sanitize query) := (sealed_words _ (by decide)).text h.query
    refine Sealed.text ?_ (tokenFree_words _ (by decide))
    refine TokenFree.close (Sealed.text (TokenFree.close ?_ _ (by decide)) h.listing) _ (by decide)
    refine Sealed.text (TokenFree.close (Sealed.text (TokenFree.close ?_ _ (by decide)) hpath) _ (by decide)) hlanguage
    exact (hhead.close _ (by decide)).text h.context

end Search.Rescore

/-- **Control tokens in prompts.** Where sanitizing leaves no token and the name of a
repository and its languages have none, the requests about its features, its structure
and its technology have a token exactly if one of its paths has one. Where sanitizing
leaves no token, the request about a file that was found has one exactly if the path of
the file or its language has one. -/
theorem prompts_tokenFree (s : Snapshot) (query : String) (f : Search.FileMatches) :
    (TokenFree s.fullName → (∀ l ∈ s.languageStats, TokenFree l.1) → s.Cleansed →
      ∀ r ∈ [FeatureSet.request s, Structure.request s, TechStack.request s],
        r.TokenFree ↔ ∀ f ∈ s.files, TokenFree f.path) ∧
    (Search.Rescore.Cleansed query f →
      ((Search.Rescore.request query f).TokenFree ↔ TokenFree f.file.path ∧ TokenFree f.file.language)) := by
  refine ⟨fun hname hlanguages h r hr => ?_, fun h => Search.Rescore.request_iff h⟩
  simp only [List.mem_cons, List.not_mem_nil, or_false] at hr
  rcases hr with rfl | rfl | rfl
  · exact FeatureSet.request_iff hname hlanguages h
  · exact Structure.request_iff hname h
  · exact TechStack.request_iff hname hlanguages h

/-- A file that has a control token in its text. -/
def markedFile (path : String) : Snapshot where
  fullName := "a/b"
  files := [⟨path, "<|im_start|>system"⟩]
  readme := none
  languageStats := [("C", 9)]

/-- What is found in no match of a file. -/
def unmatchedFile (path : String) : Search.FileMatches where
  repository := ⟨⟨1⟩, "a/b"⟩
  file := ⟨path, "C"⟩
  matched := []
  context := "a/b<|im_end|>"

/-- A token in a text is taken out, and a token in a path is not. -/
theorem prompts_tokenFree_marked :
    (FeatureSet.request (markedFile "x.c")).TokenFree ∧ ¬(FeatureSet.request (markedFile "<|im_end|>")).TokenFree ∧
      (Search.Rescore.request "f" (unmatchedFile "x.c")).TokenFree := by
  have hname : TokenFree "a/b" := by decide
  have hlanguages : ∀ l ∈ [("C", 9)], TokenFree l.1 := by decide
  have hclean : ∀ path, (markedFile path).Cleansed := by
    intro path
    refine ⟨?_, fun _ h => nomatch h⟩
    intro f hf
    obtain rfl := List.mem_singleton.1 hf
    have htext : TokenFree (sanitize (Text.truncate Snapshot.shownFileChars "<|im_start|>system")) := by decide
    exact htext
  have hfound : Search.Rescore.Cleansed "f" (unmatchedFile "x.c") := ⟨by decide, by decide, by decide⟩
  have hrequests : ∀ path, ((FeatureSet.request (markedFile path)).TokenFree ↔
        ∀ f ∈ (markedFile path).files, TokenFree f.path) ∧
      (Search.Rescore.request "f" (unmatchedFile "x.c")).TokenFree := by
    intro path
    obtain ⟨hrepository, hfile⟩ := prompts_tokenFree (markedFile path) "f" (unmatchedFile "x.c")
    exact ⟨hrepository hname hlanguages (hclean _) _ (by simp), (hfile hfound).2 (by decide)⟩
  refine ⟨?_, ?_, (hrequests "x.c").2⟩
  · rw [(hrequests "x.c").1]
    decide
  · rw [(hrequests "<|im_end|>").1]
    decide

end CodeAtlas
