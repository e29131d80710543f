import CodeAtlas.Proofs.Summary.Answers
import CodeAtlas.Proofs.Summary.CleanLists
import CodeAtlas.Summary.Features
import CodeAtlas.Summary.Structure
import CodeAtlas.Summary.TechStack

/-!
# Summaries in normal form

What a generator says about a repository is read, checked and tidied, and whatever fails on the
way is replaced by a default. So the value of a summary has a form that can be relied on, whatever
the reply was. The form is the one that checking leaves as it is.

* `FeatureSet.IsNormal`, `Structure.IsNormal`, `TechStack.IsNormal`: the forms.
* `FeatureSet.validate_eq_self_iff` and its siblings: **they are what checking leaves as it is.**
* `FeatureSet.isNormal_of_validate` and its siblings: what has been checked is of this form.
* `summaries_normal`: **every summary is in normal form.**
-/

namespace CodeAtlas

variable {σ : Type}

/-- A trimmed text that is not empty is not blank. -/
theorem Text.not_isAllBlank {s : String} (htrim : trim s = s) (hne : s ≠ "") : isAllBlank s = false := by
  rw [← Bool.not_eq_true, ← trim_eq_empty_iff, htrim]
  exact hne

/-! ## Features -/

/-- A feature with a trimmed name that is not empty, and a trimmed category in lower case. -/
structure Feature.IsNormal (f : Feature) : Prop where
  name_trimmed : Text.trim f.name = f.name
  name_nonempty : f.name ≠ ""
  category_trimmed : Text.trim f.category = f.category
  category_lower : Text.lower f.category = f.category

namespace FeatureSet

/-- **At most twenty features**, all in normal form. -/
structure IsNormal (set : FeatureSet) : Prop where
  few : set.features.length ≤ 20
  features : ∀ f ∈ set.features, f.IsNormal

variable {set checked : FeatureSet} {f : Feature}

theorem isNormal_tidy (h : Text.isAllBlank f.name = false) : (tidy f).IsNormal where
  name_trimmed := Text.trim_trim f.name
  name_nonempty := fun he => by
    rw [Text.trim_eq_empty_iff.1 he] at h
    cases h
  category_trimmed := Text.trim_lower (Text.trim_trim f.category)
  category_lower := Text.lower_lower (Text.trim f.category)

theorem tidy_eq_self (h : f.IsNormal) : tidy f = f := by
  have hcategory : Text.lower (Text.trim f.category) = f.category := by rw [h.category_trimmed, h.category_lower]
  rw [tidy, h.name_trimmed, hcategory]

/-- A set is refused just if a feature has a blank name. -/
theorem validate_eq_ok_iff :
    validate set = .ok checked ↔
      (∀ f ∈ set.features, Text.isAllBlank f.name = false) ∧ checked = ⟨(set.features.take 20).map tidy⟩ := by
  have hany : (set.features.any fun f => Text.isAllBlank f.name) = true ↔
      ¬∀ f ∈ set.features, Text.isAllBlank f.name = false := by simp
  unfold validate
  by_cases hnamed : ∀ f ∈ set.features, Text.isAllBlank f.name = false
  · rw [if_neg fun h => hany.1 h hnamed]
    exact ⟨fun h => ⟨hnamed, (Except.ok.inj h).symm⟩, fun h => congrArg Except.ok h.2.symm⟩
  · rw [if_pos (hany.2 hnamed)]
    exact iff_of_false nofun fun h => hnamed h.1

theorem isNormal_of_validate (h : validate set = .ok checked) : checked.IsNormal := by
  obtain ⟨hnamed, rfl⟩ := validate_eq_ok_iff.1 h
  refine ⟨?_, fun f hf => ?_⟩
  · rw [List.length_map]
    exact List.length_take_le 20 _
  obtain ⟨g, hg, rfl⟩ := List.mem_map.1 hf
  exact isNormal_tidy (hnamed g (List.mem_of_mem_take hg))

/-- **Sets in normal form** are those that checking leaves as they are. -/
theorem validate_eq_self_iff : validate set = .ok set ↔ set.IsNormal := by
  refine ⟨isNormal_of_validate, fun h => validate_eq_ok_iff.2 ⟨fun f hf => ?_, ?_⟩⟩
  · exact Text.not_isAllBlank (h.features f hf).name_trimmed (h.features f hf).name_nonempty
  · rw [List.take_of_length_le h.few, List.map_congr_left fun f hf => tidy_eq_self (h.features f hf), List.map_id']

end FeatureSet

/-! ## Structure -/

namespace Structure

/-- **An architecture that is trimmed, in lower case and not empty**, clean lists of patterns and entry points, and
no directory with a blank path. -/
structure IsNormal (s : Structure) : Prop where
  architecture_nonempty : s.architecture ≠ ""
  architecture_trimmed : Text.trim s.architecture = s.architecture
  architecture_lower : Text.lower s.architecture = s.architecture
  patterns : IsClean s.patterns
  directories : ∀ d ∈ s.directories, Text.isAllBlank d.path = false
  entryPoints : IsClean s.entryPoints

variable {s checked : Structure}

/-- A structure is refused just if its architecture is blank. -/
theorem validate_eq_ok_iff :
    validate s = .ok checked ↔ Text.lower (Text.trim s.architecture) ≠ "" ∧
      checked =
        { architecture := Text.lower (Text.trim s.architecture), patterns := cleanList s.patterns
          directories := s.directories.filter fun d => !Text.isAllBlank d.path
          entryPoints := cleanList s.entryPoints } := by
  unfold validate
  by_cases hempty : Text.lower (Text.trim s.architecture) = ""
  · simp only [if_pos hempty]
    exact iff_of_false nofun fun h => h.1 hempty
  · simp only [if_neg hempty]
    exact ⟨fun h => ⟨hempty, (Except.ok.inj h).symm⟩, fun h => congrArg Except.ok h.2.symm⟩

theorem isNormal_of_validate (h : validate s = .ok checked) : checked.IsNormal := by
  obtain ⟨hne, rfl⟩ := validate_eq_ok_iff.1 h
  refine ⟨hne, Text.trim_lower (Text.trim_trim _), Text.lower_lower _, isClean_cleanList _, fun d hd => ?_,
    isClean_cleanList _⟩
  simpa using (List.mem_filter.1 hd).2

/-- **Structures in normal form** are those that checking leaves as they are. -/
theorem validate_eq_self_iff : validate s = .ok s ↔ s.IsNormal := by
  refine ⟨isNormal_of_validate, fun h => ?_⟩
  have harchitecture : Text.lower (Text.trim s.architecture) = s.architecture := by
    rw [h.architecture_trimmed, h.architecture_lower]
  have hdirectories : (s.directories.filter fun d => !Text.isAllBlank d.path) = s.directories :=
    List.filter_eq_self.2 fun d hd => by rw [h.directories d hd, Bool.not_false]
  rw [validate_eq_ok_iff, harchitecture, hdirectories, cleanList_eq_self_iff.2 h.patterns,
    cleanList_eq_self_iff.2 h.entryPoints]
  exact ⟨h.architecture_nonempty, rfl⟩

end Structure

/-! ## Technology -/

namespace TechStack

/-- **Five clean lists.** -/
structure IsNormal (t : TechStack) : Prop where
  languages : IsClean t.languages
  frameworks : IsClean t.frameworks
  libraries : IsClean t.libraries
  tools : IsClean t.tools
  databases : IsClean t.databases

variable {t checked : TechStack}

theorem isNormal_of_validate (h : validate t = .ok checked) : checked.IsNormal := by
  obtain rfl := Except.ok.inj h
  exact ⟨isClean_cleanList _, isClean_cleanList _, isClean_cleanList _, isClean_cleanList _, isClean_cleanList _⟩

/-- **Stacks in normal form** are those that checking leaves as they are. -/
theorem validate_eq_self_iff : validate t = .ok t ↔ t.IsNormal := by
  refine ⟨isNormal_of_validate, fun h => ?_⟩
  rw [validate, cleanList_eq_self_iff.2 h.languages, cleanList_eq_self_iff.2 h.frameworks,
    cleanList_eq_self_iff.2 h.libraries, cleanList_eq_self_iff.2 h.tools, cleanList_eq_self_iff.2 h.databases]

end TechStack

/-! ## Summaries -/

theorem FeatureSet.isNormal_default : IsNormal {} := ⟨by simp, List.forall_mem_nil _⟩

theorem Structure.isNormal_default : IsNormal { architecture := "unknown" } :=
  ⟨by decide, by decide +kernel, by decide +kernel, isClean_nil, List.forall_mem_nil _, isClean_nil⟩

theorem TechStack.isNormal_default : IsNormal {} := ⟨isClean_nil, isClean_nil, isClean_nil, isClean_nil, isClean_nil⟩

/-- **Every summary is in normal form**, whatever a generator replies. There are at most twenty features, each with a
name and a category; there is an architecture, and every directory has a path; all lists are clean. A summary has an
error just if there is no reply, or one that cannot be read or is refused, and then its value is the default. To check
a value once more changes nothing. -/
theorem summaries_normal (generator : Generator σ) (s : Snapshot) (state : σ) :
    let features := (FeatureSet.summarize generator s state).1
    let layout := (Structure.summarize generator s state).1
    let stack := (TechStack.summarize generator s state).1
    (features.value.IsNormal ∧ FeatureSet.validate features.value = .ok features.value ∧
        features.Answers (generator (FeatureSet.request s) state).1 FeatureSet.decode FeatureSet.validate {}) ∧
      (layout.value.IsNormal ∧ Structure.validate layout.value = .ok layout.value ∧
        layout.Answers (generator (Structure.request s) state).1 Structure.decode Structure.validate
          { architecture := "unknown" }) ∧
      stack.value.IsNormal ∧ TechStack.validate stack.value = .ok stack.value ∧
        stack.Answers (generator (TechStack.request s) state).1 TechStack.decode TechStack.validate {} := by
  intro features layout stack
  refine ⟨?features, ?layout, ?stack⟩
  case features =>
    have hanswers : features.Answers (generator (FeatureSet.request s) state).1
        FeatureSet.decode FeatureSet.validate {} := structuredOr_answers
    have hnormal := hanswers.value_induction FeatureSet.isNormal_default fun _ _ => FeatureSet.isNormal_of_validate
    exact ⟨hnormal, FeatureSet.validate_eq_self_iff.2 hnormal, hanswers⟩
  case layout =>
    have hanswers : layout.Answers (generator (Structure.request s) state).1
        Structure.decode Structure.validate { architecture := "unknown" } := structuredOr_answers
    have hnormal := hanswers.value_induction Structure.isNormal_default fun _ _ => Structure.isNormal_of_validate
    exact ⟨hnormal, Structure.validate_eq_self_iff.2 hnormal, hanswers⟩
  case stack =>
    have hanswers : stack.Answers (generator (TechStack.request s) state).1
        TechStack.decode TechStack.validate {} := structuredOr_answers
    have hnormal := hanswers.value_induction TechStack.isNormal_default fun _ _ => TechStack.isNormal_of_validate
    exact ⟨hnormal, TechStack.validate_eq_self_iff.2 hnormal, hanswers⟩

end CodeAtlas
