import CodeAtlas.Summary.Basic

/-!
# How a summary comes about

A generator is asked, its reply is read, and what is read is checked. A summary has the checked
value if nothing fails on the way, and else its default.

* `Reads`: a reply that is read as a value and passes the check.
* `generateStructured_eq_ok_iff`: what has been read of a reply.
* `Summary.Answers`, `structuredOr_answers`: **a summary has an error just if something fails**,
  and then its value is the default.
* `Summary.Answers.value_induction`: what holds of every summary.
-/

namespace CodeAtlas

variable {α σ : Type} {generator : Generator σ} {decode : Json.Decoder α} {validate : α → Except String α}
  {fallback : α} {request : Request} {state : σ} {text : String} {a b b' : α}

/-- A reply is read as a value and checked. -/
def Reads (decode : Json.Decoder α) (validate : α → Except String α) (text : String) (b : α) : Prop :=
  ∃ a, parseStructured decode text = .ok a ∧ validate a = .ok b

/-- A reply is read as one value at most. -/
theorem Reads.unique (h : Reads decode validate text b) (h' : Reads decode validate text b') : b = b' := by
  obtain ⟨a, hparse, hvalid⟩ := h
  obtain ⟨a', hparse', hvalid'⟩ := h'
  obtain rfl := Except.ok.inj (hparse.symm.trans hparse')
  exact Except.ok.inj (hvalid.symm.trans hvalid')

/-- A value comes from a reply that is read as it. -/
theorem generateStructured_eq_ok_iff :
    (generateStructured generator decode request state).1 = .ok a ↔
      ∃ text, (generator request state).1 = .ok text ∧ parseStructured decode text = .ok a := by
  unfold generateStructured
  rcases generator request state with ⟨e | text, last⟩ <;> simp

/-- **How a summary comes about.** It has no error just if there is a reply that can be read and passes the check, and
then its value is what that comes to; and with an error it is the default. -/
structure Summary.Answers (reply : Except Failure String) (decode : Json.Decoder α) (validate : α → Except String α)
    (fallback : α) (s : Summary α) : Prop where
  error_eq_none_iff : s.error = none ↔ ∃ text b, reply = .ok text ∧ Reads decode validate text b
  value_eq : ∀ text b, reply = .ok text → Reads decode validate text b → s.value = b
  value_eq_fallback : s.error ≠ none → s.value = fallback

/-- The default with an error answers whatever cannot be read. -/
theorem Summary.Answers.of_forall_not {reply : Except Failure String} (e : String)
    (h : ∀ text b, reply = .ok text → ¬Reads decode validate text b) :
    Summary.Answers reply decode validate fallback { value := fallback, error := some e } where
  error_eq_none_iff := by simpa using fun text htext b => h text b htext
  value_eq := fun text b htext hb => absurd hb (h text b htext)
  value_eq_fallback := fun _ => rfl

/-- **What is made of a request**, whether nothing is read, or what is read is refused or not. -/
theorem structuredOr_answers :
    (structuredOr generator decode validate fallback request state).1.Answers (generator request state).1 decode
      validate fallback := by
  unfold structuredOr
  rcases hgen : generateStructured generator decode request state with ⟨e | a, last⟩
  · refine .of_forall_not _ ?_
    rintro text b htext ⟨a, hparse, -⟩
    have hread := generateStructured_eq_ok_iff.2 ⟨text, htext, hparse⟩
    rw [hgen] at hread
    cases hread
  · obtain ⟨text, htext, hparse⟩ := generateStructured_eq_ok_iff.1 (congrArg Prod.fst hgen)
    rw [htext]
    cases hvalid : validate a with
    | error reason =>
      simp only [hvalid]
      refine .of_forall_not _ ?_
      rintro _ b ⟨⟩ ⟨a', hparse', hb⟩
      obtain rfl := Except.ok.inj (hparse.symm.trans hparse')
      rw [hvalid] at hb
      cases hb
    | ok b =>
      simp only [hvalid]
      have hreads : Reads decode validate text b := ⟨a, hparse, hvalid⟩
      refine ⟨iff_of_true rfl ⟨text, b, rfl, hreads⟩, ?_, fun h => absurd rfl h⟩
      rintro _ b' ⟨⟩ hreads'
      exact hreads.unique hreads'

/-- The generator is asked once. -/
theorem structuredOr_snd :
    (structuredOr generator decode validate fallback request state).2 = (generator request state).2 := by
  unfold structuredOr generateStructured
  rcases generator request state with ⟨e | text, last⟩
  · rfl
  · cases hparse : parseStructured decode text with
    | error e => simp only [hparse]
    | ok a =>
      simp only [hparse]
      cases validate a <;> rfl

/-- **What holds of a default and of all that has been checked** holds of every summary. -/
theorem Summary.Answers.value_induction {reply : Except Failure String} {s : Summary α} {P : α → Prop}
    (h : s.Answers reply decode validate fallback) (hfallback : P fallback)
    (hchecked : ∀ a b, validate a = .ok b → P b) : P s.value := by
  by_cases herror : s.error = none
  · obtain ⟨text, b, htext, hb⟩ := h.error_eq_none_iff.1 herror
    rw [h.value_eq text b htext hb]
    obtain ⟨a, -, hvalid⟩ := hb
    exact hchecked a b hvalid
  · rw [h.value_eq_fallback herror]
    exact hfallback

end CodeAtlas
