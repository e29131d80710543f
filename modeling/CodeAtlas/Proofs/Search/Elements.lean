import CodeAtlas.Proofs.Json.Lowering
import CodeAtlas.Proofs.Search.Points
import CodeAtlas.Proofs.Text.Occurrences

/-!
# Elements and their written form

Functions, classes and variables are searched in their written form: values, and around
them a frame of keys and punctuation. A value is escaped in it, and the frame is in lower
case already, so the lowercase form of the whole is made of the frame and the lowercase
forms of the escaped values.

* `Element`: a function, a class or a variable, with its `values` and its `frame`.
* `candidates_eq`: elements are what is searched, next to imports and comments.
* `toList_compact`: the written form as values and frame.
* `toList_written`: **the written form in lower case.**
-/

namespace CodeAtlas.Search

open Json Outline

/-- What is searched in its written form. -/
inductive Element where
  | function (f : FunctionInfo)
  | classType (c : ClassInfo)
  | binding (v : VariableInfo)

namespace Element

def name : Element → String
  | .function f => f.name
  | .classType c => c.name
  | .binding v => v.name

def snippet : Element → String
  | .function f => f.snippet
  | .classType c => c.snippet
  | .binding v => v.snippet

def location : Element → Location
  | .function f => f.location
  | .classType c => c.location
  | .binding v => v.location

def kind : Element → MatchKind
  | .function _ => .function
  | .classType c => if c.kind = .interface then .interface else .classType
  | .binding _ => .variable

def threshold : Element → ℕ
  | .function _ => 20
  | .classType _ => 20
  | .binding _ => 25

def encode : Element → Json
  | .function f => f.encode
  | .classType c => c.encode
  | .binding v => v.encode

/-- The written form in lower case. -/
def written (e : Element) : String := Text.lower e.encode.compact

def awards (e : Element) (n : Needles) : List Award := elementAwards e.name e.written n

def candidate (n : Needles) (e : Element) : Candidate :=
  ⟨e.kind, e.name, e.snippet, e.location, e.awards n, e.threshold⟩

/-- The match of an element, if it is found. -/
def found? (e : Element) (n : Needles) : Option Match := (e.candidate n).match?

/-- The elements of an outline. -/
def ofArtifact (a : Artifact) : List Element :=
  a.functions.map .function ++ a.classes.map .classType ++ a.bindings.map .binding

/-! ## Values and frame -/

def boolText (b : Bool) : String := if b then "true" else "false"

/-- The values of an element. -/
def values : Element → List String
  | .function f =>
    [f.name, f.snippet, toString f.location.startLine, toString f.location.endLine] ++ f.parameters ++
      [boolText f.isAsync, toString f.complexity]
  | .classType c =>
    [c.name, c.kind.label, c.snippet, toString c.location.startLine, toString c.location.endLine] ++ c.methods
  | .binding v => [v.name, v.kind, v.snippet, toString v.location.startLine, toString v.location.endLine]

/-- The members of a list after the bracket that opens it, each with the part of the frame
that follows it. -/
def itemThreads (closing x : String) : List String → List (String × String)
  | [] => [(x, closing)]
  | y :: l => (x, "\",\"") :: itemThreads closing y l

/-- A value before a list and the members of the list, each with the part of the frame
that follows it. -/
def listThreads (value opening : String) (l : List String) (closing : String) : List (String × String) :=
  match l with
  | [] => [(value, opening ++ "[]" ++ closing)]
  | x :: l => (value, opening ++ "[\"") :: itemThreads ("\"]" ++ closing) x l

/-- The values of an element, each with the part of the frame that follows it. -/
def threads : Element → List (String × String)
  | .function f =>
    [(f.name, "\",\"snippet\":\""), (f.snippet, "\",\"location\":\x7b\"start_line\":"),
      (toString f.location.startLine, ",\"end_line\":")] ++
    listThreads (toString f.location.endLine) "\x7d,\"parameters\":" f.parameters ",\"is_async\":" ++
    [(boolText f.isAsync, ",\"complexity\":"), (toString f.complexity, "\x7d")]
  | .classType c =>
    [(c.name, "\",\"kind\":\""), (c.kind.label, "\",\"snippet\":\""),
      (c.snippet, "\",\"location\":\x7b\"start_line\":"), (toString c.location.startLine, ",\"end_line\":")] ++
    listThreads (toString c.location.endLine) "\x7d,\"methods\":" c.methods "\x7d"
  | .binding v =>
    [(v.name, "\",\"kind\":\""), (v.kind, "\",\"snippet\":\""), (v.snippet, "\",\"location\":\x7b\"start_line\":"),
      (toString v.location.startLine, ",\"end_line\":"), (toString v.location.endLine, "\x7d\x7d")]

/-- The part of the frame before the first value. -/
def opening : String := "\x7b\"name\":\""

/-- The parts of the frame. -/
def frame (e : Element) : List String := opening :: e.threads.map (·.2)

/-- The lowercase form of a value as it is written. -/
def asWritten (s : List Char) : List Char := Text.lowerChars (s.flatMap escape)

/-- Threads in a row, with the characters that are made of each value. -/
def weave (f : List Char → List Char) (threads : List (String × String)) : List Char :=
  threads.flatMap fun q => f q.1.toList ++ q.2.toList

theorem itemThreads_values (closing x : String) (l : List String) :
    (itemThreads closing x l).map (·.1) = x :: l := by
  induction l generalizing x with
  | nil => rfl
  | cons y l ih => simp [itemThreads, ih]

theorem listThreads_values (value opening : String) (l : List String) (closing : String) :
    (listThreads value opening l closing).map (·.1) = value :: l := by
  cases l with
  | nil => rfl
  | cons x l => simp [listThreads, itemThreads_values]

/-- **The values are those that the threads hold.** -/
theorem threads_values (e : Element) : e.threads.map (·.1) = e.values := by
  cases e <;> simp [threads, values, listThreads_values]

theorem name_mem_values (e : Element) : e.name ∈ e.values := by
  cases e <;> simp [values, name]

theorem snippet_mem_values (e : Element) : e.snippet ∈ e.values := by
  cases e <;> simp [values, snippet]

theorem mem_threads {e : Element} {v : String} (h : v ∈ e.values) : ∃ F, (v, F) ∈ e.threads := by
  rw [← e.threads_values, List.mem_map] at h
  obtain ⟨⟨w, F⟩, hq, rfl⟩ := h
  exact ⟨F, hq⟩

/-- A thread stands in the row. -/
theorem infix_weave {l : List (String × String)} {q : String × String} (h : q ∈ l) (f : List Char → List Char) :
    f q.1.toList ++ q.2.toList <:+: weave f l := by
  unfold weave
  rw [List.flatMap_def]
  exact List.infix_of_mem_flatten (List.mem_map.2 ⟨q, h, rfl⟩)

/-- **Elements are what is searched**, next to imports and comments. -/
theorem candidates_eq (a : Artifact) (n : Needles) :
    candidates a n = (ofArtifact a).map (candidate n) ++
      a.imports.map (fun i => ⟨.imported, i.source, i.snippet, i.location, importAwards i.source n, 30⟩) ++
      a.comments.map fun c => ⟨.comment, "comment", c.text, c.location, commentAwards c.text c.isDoc n, 15⟩ := by
  unfold candidates ofArtifact
  simp only [List.map_append, List.map_map]
  rfl

/-! ## The written form -/

theorem flatMap_escape_toDigits (n : ℕ) : (Nat.toDigits 10 n).flatMap escape = Nat.toDigits 10 n := by
  refine flatMap_escape fun c hc => ?_
  have hdigit : c.isDigit = true := Nat.isDigit_of_mem_toDigits (by decide) (by decide) hc
  have hall : (escaped.all fun d => !d.isDigit) = true := by decide
  by_contra hplain
  have hnot := List.all_eq_true.1 hall c (mem_escaped (by simpa using hplain))
  simp [hdigit] at hnot

/-- The members of a list in a row, from its first quotation mark on. -/
theorem toList_items (closing x : String) (l : List String) :
    (",".intercalate (compactItems ((x :: l).map .str))).toList ++ (']' :: closing.toList) =
      '"' :: weave (·.flatMap escape) (itemThreads ("\"]" ++ closing) x l) := by
  induction l generalizing x with
  | nil => simp [compactItems, compact, stringText, itemThreads, weave]
  | cons y l ih =>
    have hrest := ih y
    simp only [List.map_cons, compactItems] at hrest ⊢
    rw [String.intercalate_cons_cons, String.toList_append, String.toList_append, List.append_assoc,
      List.append_assoc, hrest]
    simp [compact, stringText, itemThreads, weave]

/-- A value before a list and the list, from the value on. -/
theorem toList_listed (value opening closing : String) (l : List String) :
    value.toList.flatMap escape ++ (opening.toList ++ ((strings l).compact.toList ++ closing.toList)) =
      weave (·.flatMap escape) (listThreads value opening l closing) := by
  cases l with
  | nil => simp [strings, compact, compactItems, listThreads, weave]
  | cons x l =>
    have hitems := toList_items closing x l
    have hlist : (strings (x :: l)).compact.toList ++ closing.toList =
        '[' :: '"' :: weave (·.flatMap escape) (itemThreads ("\"]" ++ closing) x l) := by
      rw [← hitems]
      simp [strings, compact]
    rw [hlist]
    simp [listThreads, weave]

theorem weave_append (f : List Char → List Char) (l m : List (String × String)) :
    weave f (l ++ m) = weave f l ++ weave f m := by
  unfold weave
  rw [List.flatMap_append]

/-- **The written form** as values and frame. -/
theorem toList_compact (e : Element) :
    e.encode.compact.toList = opening.toList ++ weave (·.flatMap escape) e.threads := by
  cases e with
  | function f =>
    rw [threads, weave_append, weave_append, ← toList_listed]
    have hbool : ∀ b : Bool, (boolText b).toList.flatMap escape = (boolText b).toList := by decide
    simp [encode, FunctionInfo.encode, Location.encode, compact, compactMembers, stringText, escape, weave,
      opening, flatMap_escape_toDigits, hbool]
    rfl
  | classType c =>
    rw [threads, weave_append, ← toList_listed]
    simp [encode, ClassInfo.encode, Location.encode, compact, compactMembers, stringText, escape, weave,
      opening, flatMap_escape_toDigits]
  | binding v =>
    simp [encode, VariableInfo.encode, Location.encode, compact, compactMembers, stringText, escape, weave, threads,
      opening, flatMap_escape_toDigits]

/-! ## The pieces of the frame -/

/-- All pieces that frames are made of. -/
def pieces : List String :=
  [opening, "\",\"snippet\":\"", "\",\"kind\":\"", "\",\"location\":\x7b\"start_line\":", ",\"end_line\":",
    "\x7d,\"parameters\":" ++ "[]" ++ ",\"is_async\":", "\x7d,\"parameters\":" ++ "[\"", "\"]" ++ ",\"is_async\":",
    ",\"complexity\":", "\x7d,\"methods\":" ++ "[]" ++ "\x7d", "\x7d,\"methods\":" ++ "[\"", "\"]" ++ "\x7d", "\",\"",
    "\x7d", "\x7d\x7d"]

theorem mem_itemThreads {closing x : String} {l : List String} :
    ∀ q ∈ itemThreads closing x l, q.2 = closing ∨ q.2 = "\",\"" := by
  induction l generalizing x with
  | nil => simp [itemThreads]
  | cons y l ih =>
    intro q hq
    rcases List.mem_cons.1 hq with rfl | hq
    · exact Or.inr rfl
    · exact ih q hq

theorem mem_listThreads {value opening closing : String} {l : List String} :
    ∀ q ∈ listThreads value opening l closing, q.2 ∈ [opening ++ "[]" ++ closing, opening ++ "[\"", "\"]" ++ closing, "\",\""] := by
  intro q hq
  cases l with
  | nil =>
    rw [List.mem_singleton.1 hq]
    exact List.mem_cons_self
  | cons x l =>
    rcases List.mem_cons.1 hq with rfl | hq
    · simp
    · rcases mem_itemThreads q hq with h | h <;> simp [h]

/-- **Frames are made of these pieces.** -/
theorem frame_subset_pieces (e : Element) : ∀ F ∈ e.frame, F ∈ pieces := by
  have hlist : ∀ {value opening closing : String} {l : List String},
      (∀ F ∈ [opening ++ "[]" ++ closing, opening ++ "[\"", "\"]" ++ closing, "\",\""], F ∈ pieces) →
      ∀ q ∈ listThreads value opening l closing, q.2 ∈ pieces :=
    fun h q hq => h q.2 (mem_listThreads q hq)
  intro F hF
  rcases List.mem_cons.1 hF with rfl | hF
  · exact List.mem_cons_self
  obtain ⟨q, hq, rfl⟩ := List.mem_map.1 hF
  cases e with
  | function f =>
    simp only [threads, List.mem_append] at hq
    rcases hq with (hq | hq) | hq
    · simp only [List.mem_cons, List.not_mem_nil, or_false] at hq
      rcases hq with rfl | rfl | rfl <;> simp [pieces]
    · exact hlist (by simp [pieces]) q hq
    · simp only [List.mem_cons, List.not_mem_nil, or_false] at hq
      rcases hq with rfl | rfl <;> simp [pieces]
  | classType c =>
    simp only [threads, List.mem_append] at hq
    rcases hq with hq | hq
    · simp only [List.mem_cons, List.not_mem_nil, or_false] at hq
      rcases hq with rfl | rfl | rfl | rfl <;> simp [pieces]
    · exact hlist (by simp [pieces]) q hq
  | binding v =>
    simp only [threads, List.mem_cons, List.not_mem_nil, or_false] at hq
    rcases hq with rfl | rfl | rfl | rfl | rfl <;> simp [pieces]

/-! ## In lower case -/

/-- **The frame is in lower case** and keeps the values apart. -/
theorem isMark_pieces : ∀ F ∈ pieces, Text.isMark F.toList = true := by decide +kernel

theorem lowerChars_weave {threads : List (String × String)} (h : ∀ q ∈ threads, Text.isMark q.2.toList = true)
    (f : List Char → List Char) : Text.lowerChars (weave f threads) = weave (fun s => Text.lowerChars (f s)) threads := by
  induction threads with
  | nil => rfl
  | cons q threads ih =>
    have hrest := ih fun r hr => h r (List.mem_cons_of_mem q hr)
    simp only [weave, List.flatMap_cons, List.append_assoc] at hrest ⊢
    rw [Text.lowerChars_mark (h q List.mem_cons_self), hrest]

/-- **The written form in lower case**: the frame, and between its parts the lowercase
forms of the escaped values. -/
theorem toList_written (e : Element) :
    e.written.toList = opening.toList ++ weave asWritten e.threads := by
  have hmark : ∀ F ∈ e.frame, Text.isMark F.toList = true := fun F hF => isMark_pieces F (e.frame_subset_pieces F hF)
  have hcut := Text.lowerChars_mark (hmark opening List.mem_cons_self) [] (weave (·.flatMap escape) e.threads)
  rw [lowerChars_weave fun q hq => hmark q.2 (List.mem_cons_of_mem _ (List.mem_map_of_mem hq))] at hcut
  rw [written, Text.toList_lower, toList_compact]
  exact hcut

/-- What is written for a value stands in the written form. -/
theorem infix_written_of_mem_values {e : Element} {v : String} (h : v ∈ e.values) :
    asWritten v.toList <:+: e.written.toList := by
  obtain ⟨F, hF⟩ := mem_threads h
  rw [toList_written]
  exact List.infix_append_of_infix_right (List.infix_append_left.trans (infix_weave hF asWritten))

/-- The frame stands in the written form. -/
theorem infix_written_of_mem_frame {e : Element} {F : String} (h : F ∈ e.frame) : F.toList <:+: e.written.toList := by
  rw [toList_written]
  rcases List.mem_cons.1 h with rfl | h
  · exact List.infix_append_left
  · obtain ⟨q, hq, rfl⟩ := List.mem_map.1 h
    exact List.infix_append_of_infix_right (List.infix_append_right.trans (infix_weave hq asWritten))

/-! ## Points -/

/-- **The points of an element**: those for the query, and those for each pattern in the
written form, as often as it is listed. -/
theorem sum_awards (e : Element) (n : Needles) :
    ((e.awards n).map (·.points)).sum =
      ((queryAward n.query (Text.contains (Text.lower e.name) n.query) 50 "name contains query").map (·.points)).sum +
        30 * n.terms.countP (Text.contains e.written ·) + 25 * n.codePatterns.countP (Text.contains e.written ·) +
        20 * n.frameworkHints.countP (Text.contains e.written ·) := by
  unfold awards elementAwards
  simp only [List.map_append, List.sum_append, sum_patternAwards]

/-- The points of an element fit 32 bits. -/
theorem sum_awards_lt {n : Needles} (h : n.Few) (e : Element) : ((e.awards n).map (·.points)).sum < UInt32.size :=
  Subject.sum_awards_lt h (.element e.name e.written)

/-- An element is found if its score lies above the threshold. -/
theorem found?_cases (e : Element) (n : Needles) :
    (∃ m, e.found? n = some m ∧ e.threshold < scoreOf (e.awards n)) ∨
      (e.found? n = none ∧ scoreOf (e.awards n) ≤ e.threshold) := by
  unfold found? candidate Candidate.match?
  dsimp only
  by_cases h : e.threshold < scoreOf (e.awards n)
  · exact Or.inl ⟨_, if_pos h, h⟩
  · exact Or.inr ⟨if_neg h, Nat.le_of_not_lt h⟩

end Element

end CodeAtlas.Search
