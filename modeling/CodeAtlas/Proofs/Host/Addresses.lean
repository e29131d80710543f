import CodeAtlas.Host.Rest
import CodeAtlas.Proofs.Host.Escapes
import CodeAtlas.Proofs.Service.Names

/-!
# Addresses of files

The address of a file goes on where the address of the interface ends: with `repos`, the owner and the
name of the repository, `contents`, and the parts of the file's path. A part that consists of dots is not
added to an address, and a name may have such a part: `./a` and `../a` are accepted, and both are asked
for as `a` alone.

* `Address.splitOn_path`, `Address.join_inj`: a path is known by its text.
* `Address.Leads`, `Address.Leads.unique`: an address that goes on where another one ends.
* `Rest.stem`: what an address keeps of its path when segments are added.
* `Rest.exists_owner_name`: the parts of an accepted name.
* `Rest.endpoint_eq`: **what stands in the address of something about a repository**.
* `Rest.contents_addressed`: **where the address of a file leads**, and the files of one address.
-/

namespace CodeAtlas.Address

variable {a b api : Address} {l l' : List String}

/-! ## The text of an address -/

theorem IsSegment.slash_notMem {s : String} (h : IsSegment s) : '/' ∉ s.toList := by
  intro hmem
  have hends := h '/' hmem
  exact absurd hends (by decide)

/-- **Segments are read back from a path**: each of them stands after a slash, and none has a slash in it. -/
theorem splitOn_path {s : String} (hs : IsSegment s) (hl : ∀ t ∈ l, IsSegment t) :
    (s.toList ++ (l.map ("/" ++ ·)).flatMap String.toList).splitOn '/' = s.toList :: l.map String.toList := by
  induction l generalizing s with
  | nil =>
    rw [List.map_nil, List.flatMap_nil, List.append_nil, Text.splitOn_of_notMem hs.slash_notMem]
    rfl
  | cons t l ih =>
    rw [List.forall_mem_cons] at hl
    have htext : s.toList ++ ((t :: l).map ("/" ++ ·)).flatMap String.toList =
        s.toList ++ '/' :: (t.toList ++ (l.map ("/" ++ ·)).flatMap String.toList) := by simp
    rw [htext, Text.splitOn_append_cons hs.slash_notMem, ih hl.1 hl.2, List.map_cons]

theorem join_inj (hl : ∀ t ∈ l, IsSegment t) (hl' : ∀ t ∈ l', IsSegment t) :
    String.join (l.map ("/" ++ ·)) = String.join (l'.map ("/" ++ ·)) ↔ l = l' := by
  constructor
  · intro h
    have hchars := congrArg String.toList h
    rw [String.toList_join, String.toList_join] at hchars
    have hempty : IsSegment "" := by simp [IsSegment]
    have hsplit := congrArg (fun s => ("".toList ++ s).splitOn '/') hchars
    simp only [splitOn_path hempty hl, splitOn_path hempty hl', List.cons.injEq, true_and] at hsplit
    exact (List.map_injective_iff.2 fun _ _ => String.toList_inj.1) hsplit
  · rintro rfl
    rfl

/-- **An address that goes on where another one ends**: only the path is another one, with segments that stand for the
given bytes and stay single segments. In particular the address has the query and the fragment of the other one, and
no question mark and no number sign before them. -/
structure Leads (a api : Address) (segments : List (List UInt8)) : Prop where
  scheme : a.scheme = api.scheme
  authority : a.authority = api.authority
  query : a.query = api.query
  fragment : a.fragment = api.fragment
  path : ∃ l, a.path = .segments l ∧ l.map decoded = segments ∧ ∀ s ∈ l, IsSegment s

/-- **Addresses that go on where one ends** lead to the same place if they have the same text. -/
theorem Leads.unique {x y : List (List UInt8)} (ha : a.Leads api x) (hb : b.Leads api y) (h : a.text = b.text) :
    x = y := by
  obtain ⟨l, hl, rfl, hsegments⟩ := ha.path
  obtain ⟨l', hl', rfl, hsegments'⟩ := hb.path
  unfold text at h
  rw [ha.scheme, ha.authority, ha.query, ha.fragment, hb.scheme, hb.authority, hb.query, hb.fragment, hl, hl'] at h
  rw [String.append_left_inj, String.append_left_inj, String.append_right_inj, join_inj hsegments hsegments'] at h
  rw [h]

end CodeAtlas.Address

namespace CodeAtlas.Rest

open Address (IsPart isDots bytes decoded written)

variable {settings : HostSettings} {api : Address} {base : List String} {q : Registration}
  {fullName path : String} {tail : List String}

/-! ## Where the path of the interface ends -/

/-- What an address keeps of its path when segments are added: an empty last segment is left out, and so is an empty
one that is then the only one. -/
def stem (base : List String) : List String :=
  if Address.popIfEmpty base = [""] then [] else Address.popIfEmpty base

/-- A path without an empty segment at its end. -/
def withoutEmptyLast (base : List String) : List String := if base.getLast? = some "" then base.dropLast else base

theorem stem_of_ne (h : base ≠ ["", ""]) : stem base = withoutEmptyLast base := by
  unfold stem withoutEmptyLast Address.popIfEmpty
  by_cases hlast : base.getLast? = some ""
  · have hback : base.dropLast ++ [""] = base := List.dropLast_append_getLast? "" hlast
    by_cases hlen : 1 < base.length
    · have hne : base.dropLast ≠ [""] := by
        intro hdrop
        rw [hdrop] at hback
        exact h hback.symm
      simp [hlast, hlen, hne]
    · -- the empty segment is the only one
      have hdrop : base.dropLast = [] := by
        apply List.length_eq_zero_iff.1
        rw [List.length_dropLast]
        omega
      rw [hdrop, List.nil_append] at hback
      subst hback
      rfl
  · have hne : base ≠ [""] := by
      rintro rfl
      exact hlast rfl
    simp [hlast, hne]

theorem length_stem_le (base : List String) : (stem base).length ≤ (withoutEmptyLast base).length := by
  by_cases h : base = ["", ""]
  · subst h
    decide
  · rw [stem_of_ne h]

theorem mem_of_mem_stem {s : String} (h : s ∈ stem base) : s ∈ base := by
  have hpop : Address.popIfEmpty base ⊆ base := by
    unfold Address.popIfEmpty
    split_ifs
    · exact List.dropLast_subset base
    · exact List.Subset.refl base
  unfold stem at h
  split_ifs at h
  · contradiction
  · exact hpop h

/-! ## Names -/

/-- A part of a name is a part of a path, or it consists of dots: no blank is in it. -/
theorem isDots_or_isPart {s : String} (hs : s ≠ "") (hblank : ∀ c ∈ s.toList, Text.isBlank c = false) :
    isDots s = true ∨ IsPart s := by
  have hclean : s.toList.any Address.isTabOrLineEnd = false := by
    rw [List.any_eq_false]
    intro c hc htab
    simp only [Address.isTabOrLineEnd, Bool.or_eq_true, decide_eq_true_eq] at htab
    have hnot := hblank c hc
    rcases htab with (rfl | rfl) | rfl <;> revert hnot <;> decide
  cases hdots : isDots s with
  | true => exact .inl rfl
  | false => exact .inr (Address.isPart_iff.2 ⟨hs, hdots, hclean⟩)

theorem split_eq (s : String) : Text.split s "/" = (s.toList.splitOn '/').map String.ofList := by
  rw [← Text.pieces_eq_splitOn]
  rfl

/-- **An accepted name is an owner and a name**, each of them a part of a path or made of dots. -/
theorem exists_owner_name (h : q.acceptedName? = some fullName) :
    ∃ owner name, fullName = owner ++ "/" ++ name ∧ Text.split fullName "/" = [owner, name] ∧
      (isDots owner = true ∨ IsPart owner) ∧ (isDots name = true ∨ IsPart name) := by
  obtain ⟨-, hfull⟩ := Registration.acceptedName?_eq_some_iff.1 h
  obtain ⟨owner, name, hs, howner, hname, hslash, hslash'⟩ := hfull.parts
  have hblank := hfull.noBlank
  rw [hs] at hblank
  refine ⟨String.ofList owner, String.ofList name, ?joined, ?pieces, ?owner, ?name⟩
  case joined =>
    apply String.toList_inj.1
    rw [hs]
    simp
  case pieces =>
    rw [split_eq, hs, Text.splitOn_append_cons hslash, Text.splitOn_of_notMem hslash']
    rfl
  case owner =>
    apply isDots_or_isPart
    · simpa using howner
    · intro c hc
      rw [String.toList_ofList] at hc
      exact hblank c (by simp [hc])
  case name =>
    apply isDots_or_isPart
    · simpa using hname
    · intro c hc
      rw [String.toList_ofList] at hc
      exact hblank c (by simp [hc])

/-- A text is known by its pieces. -/
theorem split_injective {s t : String} (h : Text.split s "/" = Text.split t "/") : s = t := by
  rw [split_eq, split_eq] at h
  have hpieces : s.toList.splitOn '/' = t.toList.splitOn '/' :=
    (List.map_injective_iff.2 fun _ _ => String.ofList_injective) h
  have hjoined := congrArg (List.intercalate ['/']) hpieces
  rw [List.intercalate_splitOn, List.intercalate_splitOn] at hjoined
  exact String.toList_inj.1 hjoined

/-! ## Addresses -/

/-- **What stands in the address of something about a repository**: the parts that do not consist of dots. -/
theorem endpoint_eq (hapi : Address.ofText settings.apiUrl = .ok api) (hbase : api.path = .segments base)
    (hparts : ∀ s ∈ Text.split fullName "/" ++ tail, isDots s = true ∨ IsPart s) :
    endpoint settings fullName tail = .ok { api with path := .segments (stem base ++
      (("repos" :: Text.split fullName "/" ++ tail).filter (!isDots ·)).map
        (written (Address.isSpecialScheme api.scheme))) } := by
  have hrepos : IsPart "repos" := by decide
  have hfirst : Address.push (Address.isSpecialScheme api.scheme) (Address.popIfEmpty base) "repos" =
      stem base ++ [written (Address.isSpecialScheme api.scheme) "repos"] := Address.push_of_isPart hrepos
  unfold endpoint Address.extend?
  rw [hapi]
  simp only [hbase]
  rw [List.cons_append, List.foldl_cons, hfirst, Address.foldl_push (hrepos.append_written_ne _) hparts,
    List.append_assoc]
  rfl

/-- **The path of a file**: each of its segments is a part. -/
def IsFilePath (path : String) : Prop := ∀ s ∈ Text.split path "/", IsPart s

instance (path : String) : Decidable (IsFilePath path) := inferInstanceAs (Decidable (∀ s ∈ _, IsPart s))

/-- The parts of the address of a file: `repos`, the owner and the name, `contents` and the segments of the path. -/
def fileParts (fullName path : String) : List String :=
  "repos" :: Text.split fullName "/" ++ "contents" :: Text.split path "/"

/-- Those of them that are added to the address of the interface. -/
def writtenParts (fullName path : String) : List String := (fileParts fullName path).filter (!isDots ·)

/-- **Neither the owner nor the name consists of dots**. -/
def HasNoDots (fullName : String) : Prop := ∀ s ∈ Text.split fullName "/", isDots s = false

instance (fullName : String) : Decidable (HasNoDots fullName) :=
  inferInstanceAs (Decidable (∀ s ∈ _, isDots s = false))

theorem isDots_or_isPart_of_mem {s : String} (hname : q.acceptedName? = some fullName) (hpath : IsFilePath path)
    (hs : s ∈ fileParts fullName path) : isDots s = true ∨ IsPart s := by
  obtain ⟨owner, name, -, hsplit, howner, hname⟩ := exists_owner_name hname
  unfold fileParts at hs
  rw [hsplit] at hs
  simp only [List.cons_append, List.nil_append, List.mem_cons] at hs
  rcases hs with rfl | rfl | rfl | rfl | hs
  · exact .inr (by decide)
  · exact howner
  · exact hname
  · exact .inr (by decide)
  · exact .inr (hpath s hs)

theorem isPart_of_mem_writtenParts {s : String} (hname : q.acceptedName? = some fullName) (hpath : IsFilePath path)
    (hs : s ∈ writtenParts fullName path) : IsPart s := by
  obtain ⟨hmem, hnot⟩ := List.mem_filter.1 hs
  rcases isDots_or_isPart_of_mem hname hpath hmem with hdots | hpart
  · rw [hdots] at hnot
    exact absurd hnot (by decide)
  · exact hpart

/-- Only an owner or a name can be left out. -/
theorem writtenParts_eq_iff (hpath : IsFilePath path) :
    writtenParts fullName path = fileParts fullName path ↔ HasNoDots fullName := by
  unfold writtenParts HasNoDots
  rw [List.filter_eq_self]
  constructor
  · intro h s hs
    simpa using h s (by simp [fileParts, hs])
  · intro h s hs
    unfold fileParts at hs
    simp only [List.cons_append, List.mem_cons, List.mem_append] at hs
    rcases hs with rfl | hs | rfl | hs
    · decide
    · rw [h s hs, Bool.not_false]
    · decide
    · rw [(hpath s hs).not_dots, Bool.not_false]

/-- **A name and a path are known by the parts**, since a name is two of them. -/
theorem fileParts_inj {q' : Registration} {fullName' path' : String} (hname : q.acceptedName? = some fullName)
    (hname' : q'.acceptedName? = some fullName') (h : fileParts fullName path = fileParts fullName' path') :
    fullName = fullName' ∧ path = path' := by
  obtain ⟨owner, name, -, hsplit, -, -⟩ := exists_owner_name hname
  obtain ⟨owner', name', -, hsplit', -, -⟩ := exists_owner_name hname'
  unfold fileParts at h
  rw [hsplit, hsplit'] at h
  simp only [List.cons_append, List.nil_append, List.cons.injEq, true_and] at h
  obtain ⟨rfl, rfl, hpaths⟩ := h
  exact ⟨split_injective (hsplit.trans hsplit'.symm), split_injective hpaths⟩

theorem contentsAddress_eq (hapi : Address.ofText settings.apiUrl = .ok api) (hbase : api.path = .segments base)
    (hname : q.acceptedName? = some fullName) (hpath : IsFilePath path) :
    contentsAddress settings fullName path = .ok { api with path := .segments (stem base ++
      (writtenParts fullName path).map (written (Address.isSpecialScheme api.scheme))) } := by
  have hkept : (Text.split path "/").filter (· ≠ "") = Text.split path "/" := by
    rw [List.filter_eq_self]
    intro s hs
    exact decide_eq_true (hpath s hs).ne_empty
  unfold contentsAddress
  rw [hkept, endpoint_eq hapi hbase]
  · rfl
  · intro s hs
    exact isDots_or_isPart_of_mem hname hpath (List.mem_cons_of_mem "repos" hs)

/-- **The address of a file exists** and leads on from the interface through the parts that are written. -/
theorem exists_contentsAddress (hapi : Address.ofText settings.apiUrl = .ok api) (hbase : api.path = .segments base)
    (hname : q.acceptedName? = some fullName) (hpath : IsFilePath path) :
    ∃ a, contentsAddress settings fullName path = .ok a ∧
      a.Leads api ((stem base).map decoded ++ (writtenParts fullName path).map bytes) := by
  have hread : ((writtenParts fullName path).map (written (Address.isSpecialScheme api.scheme))).map decoded =
      (writtenParts fullName path).map bytes := by
    rw [List.map_map]
    apply List.map_congr_left
    intro s hs
    rw [Function.comp_apply]
    exact (isPart_of_mem_writtenParts hname hpath hs).readBack _
  refine ⟨_, contentsAddress_eq hapi hbase hname hpath, rfl, rfl, rfl, rfl, _, rfl, ?_, ?_⟩
  · rw [List.map_append, hread]
  · intro s hs
    rcases List.mem_append.1 hs with hstem | hwritten
    · exact Address.isSegment_of_ofText hapi hbase s (mem_of_mem_stem hstem)
    · obtain ⟨t, -, rfl⟩ := List.mem_map.1 hwritten
      exact Address.isSegment_written _ t

/-- What is kept of the interface's path and the parts that are written are all there could be, exactly if none of them
is left out. -/
theorem written_eq_iff (hpath : IsFilePath path) :
    (stem base).map decoded ++ (writtenParts fullName path).map bytes =
      (withoutEmptyLast base).map decoded ++ (fileParts fullName path).map bytes ↔
    HasNoDots fullName ∧ base ≠ ["", ""] := by
  constructor
  · intro h
    have hlen := congrArg List.length h
    simp only [List.length_append, List.length_map] at hlen
    have hstem := length_stem_le base
    have hparts : (writtenParts fullName path).length ≤ (fileParts fullName path).length := List.length_filter_le _ _
    constructor
    · apply (writtenParts_eq_iff hpath).1
      apply List.filter_eq_self.2
      apply List.length_filter_eq_length_iff.1
      show (writtenParts fullName path).length = _
      omega
    · rintro rfl
      have hlost : (stem ["", ""]).length < (withoutEmptyLast ["", ""]).length := by decide
      omega
  · rintro ⟨hdots, hne⟩
    rw [stem_of_ne hne, (writtenParts_eq_iff hpath).2 hdots]

/-- **Where the address of a file leads.** For every interface with a path, every accepted name and every path of a
file there is an address. It is that of the interface with the parts that are written at the end of its path. All
parts are there exactly if neither the owner nor the name consists of dots and the interface's path is not `//`. Two
files have one address exactly if the same is written for them: without such owners and names, only if they are one
file of one repository. -/
theorem contents_addressed (hapi : Address.ofText settings.apiUrl = .ok api) (hbase : api.path = .segments base)
    (hname : q.acceptedName? = some fullName) (hpath : IsFilePath path) :
    ∃ a owner name, contentsAddress settings fullName path = .ok a ∧
      fullName = owner ++ "/" ++ name ∧
      fileParts fullName path = "repos" :: owner :: name :: "contents" :: Text.split path "/" ∧
      a.Leads api ((stem base).map decoded ++ (writtenParts fullName path).map bytes) ∧
      (a.Leads api ((withoutEmptyLast base).map decoded ++ (fileParts fullName path).map bytes) ↔
        HasNoDots fullName ∧ base ≠ ["", ""]) ∧
      ∀ q' fullName' path', Registration.acceptedName? q' = some fullName' → IsFilePath path' →
        ∃ b, contentsAddress settings fullName' path' = .ok b ∧
          (a.text = b.text ↔ writtenParts fullName path = writtenParts fullName' path') ∧
          (HasNoDots fullName → HasNoDots fullName' → (a.text = b.text ↔ fullName = fullName' ∧ path = path')) := by
  obtain ⟨a, ha, hleads⟩ := exists_contentsAddress hapi hbase hname hpath
  obtain ⟨owner, name, hfull, hsplit, -, -⟩ := exists_owner_name hname
  refine ⟨a, owner, name, ha, hfull, ?_, hleads, ?_, ?_⟩
  · unfold fileParts
    rw [hsplit]
    rfl
  · rw [← written_eq_iff hpath]
    constructor
    · intro hall
      exact hleads.unique hall rfl
    · intro hsame
      rw [← hsame]
      exact hleads
  · intro q' fullName' path' hname' hpath'
    obtain ⟨b, hb, hleads'⟩ := exists_contentsAddress hapi hbase hname' hpath'
    have hwritten : a.text = b.text ↔ writtenParts fullName path = writtenParts fullName' path' := by
      constructor
      · intro htext
        have hsame := List.append_cancel_left (hleads.unique hleads' htext)
        exact List.map_injective_iff.2 Address.bytes_injective hsame
      · intro hparts
        rw [contentsAddress_eq hapi hbase hname hpath] at ha
        rw [contentsAddress_eq hapi hbase hname' hpath', ← hparts] at hb
        rw [← Except.ok.inj ha, ← Except.ok.inj hb]
    refine ⟨b, hb, hwritten, ?_⟩
    intro hdots hdots'
    rw [hwritten, (writtenParts_eq_iff hpath).2 hdots, (writtenParts_eq_iff hpath').2 hdots']
    constructor
    · exact fileParts_inj hname hname'
    · rintro ⟨rfl, rfl⟩
      rfl

/-- An interface below a path, a name that is given with an ending, and a path with a question mark. -/
theorem contents_addressed_questionMark :
    ∃ a, contentsAddress { apiUrl := "https://ghe.example.com/api/v3/" } "acme/widgets" "src/what?.ts" = .ok a ∧
      a.Leads ⟨"https", some "ghe.example.com", .segments ["api", "v3", ""], none, none⟩
        (["api", "v3", "repos", "acme", "widgets", "contents", "src", "what?.ts"].map bytes) ∧
      ∃ b, contentsAddress { apiUrl := "https://ghe.example.com/api/v3/" } "acme/gadgets" "src/what?.ts" = .ok b ∧
        a.text ≠ b.text := by
  have hapi : Address.ofText (HostSettings.apiUrl { apiUrl := "https://ghe.example.com/api/v3/" }) =
      .ok ⟨"https", some "ghe.example.com", .segments ["api", "v3", ""], none, none⟩ := by decide
  have hname : Registration.acceptedName? { fullName := "acme/widgets.git" } = some "acme/widgets" := by decide
  have hname' : Registration.acceptedName? { fullName := "acme/gadgets" } = some "acme/gadgets" := by decide
  have hpath : IsFilePath "src/what?.ts" := by decide
  obtain ⟨a, -, -, ha, -, -, -, hleads, hfiles⟩ := contents_addressed hapi rfl hname hpath
  obtain ⟨b, hb, -, htexts⟩ := hfiles _ _ _ hname' hpath
  refine ⟨a, ha, ?_, b, hb, ?_⟩
  · exact hleads.2 ⟨by decide, by decide⟩
  · rw [ne_eq, htexts (by decide) (by decide)]
    decide

example : Registration.acceptedName? { fullName := "../a" } = some "../a" ∧
    contentsAddress {} "./a" "b" = contentsAddress {} "../a" "b" := by decide

end CodeAtlas.Rest
