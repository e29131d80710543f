import CodeAtlas.Proofs.Analysis.Stream
import CodeAtlas.Proofs.Summary.Answers

/-!
# Stages that fail

Four stages of a run ask a generator. A stage whose request fails stores a default,
is listed as degraded and is announced as such, and nothing else changes. The
generator is any function of the request here, so that two runs can be compared.

* `Stage.Fails`: no reply, or one that the stage does not accept.
* `structuredOr_answering`: what is made of one request.
* `Mends`: a generator under which the stages that fail do not fail.
* `analyze_isolated`: **every set of failing stages leaves the others as they are.**
-/

namespace CodeAtlas

variable {α σ : Type}

/-! ## Stages that ask a generator -/

/-- A generator whose reply is a function of the request. -/
def answering (σ : Type) (ask : Request → Except Failure String) : Generator σ :=
  fun request state => (ask request, state)

/-- A stage that asks a generator. -/
inductive Stage where
  | features
  | layout
  | techStack
  | summary
deriving Repr, DecidableEq

/-- What has been found before the overview is asked for. -/
def Result.findings (r : Result) : Overview.Findings := ⟨r.features, r.layout, r.techStack, r.metrics⟩

namespace Stage

/-- The stages in the order of a run. -/
def all : List Stage := [features, layout, techStack, summary]

/-- The name under which a stage is listed as degraded. -/
def label : Stage → String
  | features => "features"
  | layout => "structure"
  | techStack => "tech_stack"
  | summary => "summary"

/-- The step that announces a stage. -/
def step : Stage → ℕ
  | features => 4
  | layout => 5
  | techStack => 6
  | summary => 8

theorem step_mem (stage : Stage) : stage.step ∈ [4, 5, 6, 8] := by
  cases stage <;> decide

/-- What a stage asks. -/
def request (s : Snapshot) (found : Overview.Findings) : Stage → Request
  | features => FeatureSet.request s
  | layout => Structure.request s
  | techStack => TechStack.request s
  | summary => Overview.request s found

/-- The replies that a stage takes. -/
def Accepts : Stage → String → Prop
  | features, text => ∃ b, Reads FeatureSet.decode FeatureSet.validate text b
  | layout, text => ∃ b, Reads Structure.decode Structure.validate text b
  | techStack, text => ∃ b, Reads TechStack.decode TechStack.validate text b
  | summary, text => Text.isAllBlank text = false

/-- **The request of a stage fails**: there is no reply, or one that is not taken. -/
def Fails (ask : Request → Except Failure String) (s : Snapshot) (found : Overview.Findings) (stage : Stage) :
    Prop :=
  ∀ text, ask (stage.request s found) = .ok text → ¬stage.Accepts text

theorem exists_iff {p : Stage → Prop} :
    (∃ stage, p stage) ↔ p features ∨ p layout ∨ p techStack ∨ p summary := by
  constructor
  · rintro ⟨stage, h⟩
    cases stage <;> simp [h]
  · rintro (h | h | h | h) <;> exact ⟨_, h⟩

/-- The labels of some of the stages. -/
theorem map_label_filter_all (p : Stage → Bool) :
    (all.filter p).map label =
      (if p features then ["features"] else []) ++ (if p layout then ["structure"] else []) ++
        (if p techStack then ["tech_stack"] else []) ++ (if p summary then ["summary"] else []) := by
  simp only [all, List.filter_cons, List.filter_nil]
  cases p features <;> cases p layout <;> cases p techStack <;> cases p summary <;> rfl

end Stage

/-- **A generator under which the failing requests do not fail**, apart from that for
the overview. The others are answered as before. -/
structure Mends (ask sound : Request → Except Failure String) (s : Snapshot) (found : Overview.Findings) :
    Prop where
  accepted : ∀ stage ≠ Stage.summary, ¬stage.Fails sound s found
  kept : ∀ stage ≠ Stage.summary, ¬stage.Fails ask s found →
    sound (stage.request s found) = ask (stage.request s found)

section Requests

variable (ask sound : Request → Except Failure String)

/-! ## One request -/

/-- **What is made of a request**: the default exactly if it fails. -/
theorem structuredOr_answering (decode : Json.Decoder α) (validate : α → Except String α) (fallback : α)
    (request : Request) (state : σ) :
    ∃ s, structuredOr (answering σ ask) decode validate fallback request state = (s, state) ∧
      (s.isDegraded = true ↔ ∀ text, ask request = .ok text → ¬∃ b, Reads decode validate text b) ∧
      (s.isDegraded = true → s.value = fallback) := by
  have hanswers : (structuredOr (answering σ ask) decode validate fallback request state).1.Answers
      (answering σ ask request state).1 decode validate fallback := structuredOr_answers
  have hdegraded (s : Summary α) : s.isDegraded = true ↔ s.error ≠ none := Option.isSome_iff_ne_none
  refine ⟨_, Prod.ext rfl structuredOr_snd, ?_, fun h => hanswers.value_eq_fallback ((hdegraded _).1 h)⟩
  rw [hdegraded, ne_eq, hanswers.error_eq_none_iff]
  constructor
  · exact fun hnone text htext ⟨b, hb⟩ => hnone ⟨text, b, htext, hb⟩
  · exact fun hnone ⟨text, b, htext, hb⟩ => hnone text htext ⟨b, hb⟩

/-- A request that is answered alike comes to the same. -/
theorem structuredOr_congr {request : Request} (h : sound request = ask request) (decode : Json.Decoder α)
    (validate : α → Except String α) (fallback : α) (state : σ) :
    structuredOr (answering σ sound) decode validate fallback request state =
      structuredOr (answering σ ask) decode validate fallback request state := by
  simp only [structuredOr, generateStructured, answering, h]

/-- The sentence that stands in for an overview is not empty. -/
theorem Overview.plain_ne_empty (s : Snapshot) (found : Findings) : plain s found ≠ "" := by
  intro h
  have hlen := congrArg String.length h
  simp [plain, String.length_append] at hlen

/-- **What is made of the request for an overview.** -/
theorem Overview.summarize_answering (s : Snapshot) (found : Findings) (state : σ) :
    ∃ y, summarize (answering σ ask) s found state = (y, state) ∧
      (y.isDegraded = true ↔ Stage.summary.Fails ask s found) ∧
      (y.isDegraded = true → y.value = plain s found) := by
  cases hask : ask (request s found) with
  | error e =>
    refine ⟨_, by simp only [summarize, answering, hask]; rfl, ?_, fun _ => rfl⟩
    simp [Summary.isDegraded, Stage.Fails, Stage.request, hask]
  | ok text =>
    cases hblank : Text.isAllBlank text with
    | true =>
      refine ⟨_, by simp only [summarize, answering, hask, hblank, if_true]; rfl, ?_, fun _ => rfl⟩
      simp [Summary.isDegraded, Stage.Fails, Stage.request, Stage.Accepts, hask, hblank]
    | false =>
      refine ⟨_, by simp only [summarize, answering, hask, hblank, Bool.false_eq_true, if_false]; rfl, ?_, ?_⟩
      · simp [Summary.isDegraded, Stage.Fails, Stage.request, Stage.Accepts, hask, hblank]
      · simp [Summary.isDegraded]

end Requests

/-! ## The stages of one run -/

/-- **What is fetched for a run**, where the host answers. -/
def Fetches (host : Host σ) (settings : AnalysisSettings) (fullName : String) (state : σ) (s : Snapshot) : Prop :=
  ∃ tree after last, host.tree fullName state = (.ok tree, after) ∧
    fetchSnapshot host settings fullName ((Selection.selectFiles tree settings.mediumCap).take settings.maxFiles)
      after = (.ok s, last)

theorem summaryEvent_eq (step : ℕ) (title : String) (s : Summary α) :
    ∃ message, summaryEvent step title s = .progress step message s.isDegraded := by
  rcases s with ⟨v, _ | e⟩ <;> exact ⟨_, rfl⟩

open Classical in
/-- **What a run stores and announces of the stages that ask.** -/
structure Isolated (ask : Request → Except Failure String) (s : Snapshot) (events : List AnalysisEvent)
    (result : Result) : Prop where
  features : Stage.features.Fails ask s result.findings → result.features = {}
  layout : Stage.layout.Fails ask s result.findings → result.layout = {}
  techStack : Stage.techStack.Fails ask s result.findings → result.techStack = {}
  summary : Stage.summary.Fails ask s result.findings →
    result.summary = Overview.plain s result.findings ∧ result.summary ≠ ""
  degraded : result.degradedStages = (Stage.all.filter (·.Fails ask s result.findings)).map Stage.label
  announced : ∀ step message degraded, .progress step message degraded ∈ events →
    (degraded = true ↔ ∃ stage : Stage, stage.step = step ∧ stage.Fails ask s result.findings)

/-- Announcements of other steps may be added. -/
theorem Isolated.of_subset {ask : Request → Except Failure String} {s : Snapshot} {events more : List AnalysisEvent}
    {result : Result} (h : Isolated ask s events result)
    (hmore : ∀ e ∈ more, e ∈ events ∨
      ∃ step message, e = .progress step message false ∧ step ∉ [4, 5, 6, 8]) :
    Isolated ask s more result := by
  refine { h with announced := fun step message degraded hmem => ?_ }
  rcases hmore _ hmem with hold | ⟨step', message', heq, hother⟩
  · exact h.announced step message degraded hold
  · cases heq
    refine iff_of_false Bool.false_ne_true ?_
    rintro ⟨stage, rfl, -⟩
    exact hother stage.step_mem

open Classical in
/-- **The stages that ask**, one after the other. -/
theorem evaluate_isolated (ask : Request → Except Failure String) (s : Snapshot) (state : σ) :
    Isolated ask s (evaluate (answering σ ask) s state).1 (evaluate (answering σ ask) s state).2.1 := by
  obtain ⟨F, hF, hFd, hFv⟩ := structuredOr_answering ask FeatureSet.decode FeatureSet.validate {}
    (FeatureSet.request s) state
  obtain ⟨L, hL, hLd, hLv⟩ := structuredOr_answering ask Structure.decode Structure.validate {}
    (Structure.request s) state
  obtain ⟨T, hT, hTd, hTv⟩ := structuredOr_answering ask TechStack.decode TechStack.validate {}
    (TechStack.request s) state
  obtain ⟨y, hy, hyd, hyv⟩ := Overview.summarize_answering ask s
    ⟨F.value, L.value, T.value, Metrics.ofFiles s.files⟩ state
  set found : Overview.Findings := ⟨F.value, L.value, T.value, Metrics.ofFiles s.files⟩ with hfound
  -- the findings do not matter to the first three requests
  have hF' : F.isDegraded = true ↔ Stage.features.Fails ask s found := hFd
  have hL' : L.isDegraded = true ↔ Stage.layout.Fails ask s found := hLd
  have hT' : T.isDegraded = true ↔ Stage.techStack.Fails ask s found := hTd
  simp only [evaluate, FeatureSet.summarize, Structure.summarize, TechStack.summarize, hF, hL, hT, ← hfound, hy]
  refine ⟨fun h => hFv (hF'.2 h), fun h => hLv (hL'.2 h), fun h => hTv (hT'.2 h), fun h => ?_, ?_, ?_⟩
  · have hplain := hyv (hyd.2 h)
    exact ⟨hplain, hplain ▸ Overview.plain_ne_empty _ _⟩
  · simp only [Stage.map_label_filter_all, degradedStage, Result.findings, ← hfound, decide_eq_true_eq, hF', hL',
      hT', hyd]
  · obtain ⟨n₄, h₄⟩ := summaryEvent_eq 4 "Feature analysis" F
    obtain ⟨n₅, h₅⟩ := summaryEvent_eq 5 "Structure analysis" L
    obtain ⟨n₆, h₆⟩ := summaryEvent_eq 6 "Tech stack analysis" T
    obtain ⟨n₈, h₈⟩ := summaryEvent_eq 8 "Summary" y
    intro step message degraded hmem
    simp only [h₄, h₅, h₆, h₈, List.mem_cons, List.not_mem_nil, or_false, AnalysisEvent.progress.injEq] at hmem
    change degraded = true ↔ ∃ stage : Stage, stage.step = step ∧ stage.Fails ask s found
    rw [Stage.exists_iff]
    rcases hmem with ⟨rfl, -, rfl⟩ | ⟨rfl, -, rfl⟩ | ⟨rfl, -, rfl⟩ | ⟨rfl, -, rfl⟩ | ⟨rfl, -, rfl⟩
    · simpa [Stage.step] using hF'
    · simpa [Stage.step] using hL'
    · simpa [Stage.step] using hT'
    · simp [Stage.step]
    · simpa [Stage.step] using hyd

/-- The stages announce steps 4 to 8. -/
theorem evaluate_steps (generator : Generator σ) (s : Snapshot) (state : σ) :
    (evaluate generator s state).1.map AnalysisEvent.step? = (List.range' 4 5).map some := by
  simp [evaluate, List.range'_succ]

/-- What is stored of the first three stages is what each of them alone comes to. -/
theorem evaluate_values (ask : Request → Except Failure String) (s : Snapshot) (state : σ) :
    let result := (evaluate (answering σ ask) s state).2.1
    result.features = (FeatureSet.summarize (answering σ ask) s state).1.value ∧
      result.layout = (Structure.summarize (answering σ ask) s state).1.value ∧
      result.techStack = (TechStack.summarize (answering σ ask) s state).1.value := by
  intro result
  obtain ⟨F, hF, -⟩ := structuredOr_answering ask FeatureSet.decode FeatureSet.validate {}
    (FeatureSet.request s) state
  obtain ⟨L, hL, -⟩ := structuredOr_answering ask Structure.decode Structure.validate {}
    (Structure.request s) state
  obtain ⟨T, hT, -⟩ := structuredOr_answering ask TechStack.decode TechStack.validate {}
    (TechStack.request s) state
  simp only [result, evaluate, FeatureSet.summarize, Structure.summarize, TechStack.summarize, hF, hL, hT]
  exact ⟨trivial, trivial, trivial⟩

/-- **What a mended generator leaves as it is**: the stages that do not fail. -/
theorem evaluate_mends {ask sound : Request → Except Failure String} {s : Snapshot} {found : Overview.Findings}
    (h : Mends ask sound s found) (state : σ) :
    let result := (evaluate (answering σ ask) s state).2.1
    let other := (evaluate (answering σ sound) s state).2.1
    (¬Stage.features.Fails ask s found → result.features = other.features) ∧
      (¬Stage.layout.Fails ask s found → result.layout = other.layout) ∧
      (¬Stage.techStack.Fails ask s found → result.techStack = other.techStack) := by
  intro result other
  obtain ⟨hF, hL, hT⟩ := evaluate_values ask s state
  obtain ⟨hF', hL', hT'⟩ := evaluate_values sound s state
  refine ⟨fun hok => ?_, fun hok => ?_, fun hok => ?_⟩
  · have hsame : sound (FeatureSet.request s) = ask (FeatureSet.request s) := h.kept .features nofun hok
    rw [hF, hF', FeatureSet.summarize, FeatureSet.summarize, structuredOr_congr ask sound hsame]
  · have hsame : sound (Structure.request s) = ask (Structure.request s) := h.kept .layout nofun hok
    rw [hL, hL', Structure.summarize, Structure.summarize, structuredOr_congr ask sound hsame]
  · have hsame : sound (TechStack.request s) = ask (TechStack.request s) := h.kept .techStack nofun hok
    rw [hT, hT', TechStack.summarize, TechStack.summarize, structuredOr_congr ask sound hsame]

/-- The steps of a run whose host answers; only the last five depend on the generator. -/
theorem conduct_of_fetches {host : Host σ} {settings : AnalysisSettings} {fullName : String} {state : σ}
    {s : Snapshot} (h : Fetches host settings fullName state s) :
    ∃ last, ∀ generator : Generator σ, ∃ m₁ m₂ m₃, conduct host generator settings fullName state =
      ⟨.progress 1 m₁ false :: .progress 2 m₂ false :: .progress 3 m₃ false :: (evaluate generator s last).1,
        .ok (evaluate generator s last).2.1, (evaluate generator s last).2.2⟩ := by
  obtain ⟨tree, after, last, htree, hfetch⟩ := h
  refine ⟨last, fun generator => ?_⟩
  simp only [conduct, htree, hfetch]
  exact ⟨_, _, _, rfl⟩

variable {host : Host σ} {settings : AnalysisSettings} {fates : Fates} {stamps : Stamps} {id : Ident}
  {archive : Archive} {state : σ} {r : Repository} {s : Snapshot}

/-- **A run that can be begun and stored completes** if its stages come to a result. -/
theorem analyze_completes {generator : Generator σ} {result : Result} (hr : archive.data.repository? id = some r)
    (hidle : archive.data.running? id = none) (hfresh : ∀ x ∈ archive.data.analyses, x.id ≠ stamps.fresh)
    (hbegin : archive.Writes fates.begin) (hfinish : archive.Writes fates.finish)
    (hok : (conduct host generator settings r.fullName state).result = .ok result) :
    let run := analyze host generator settings fates stamps id archive state
    run.events = (conduct host generator settings r.fullName state).events ++
        [.progress 9 "Analysis saved" false, .complete stamps.fresh .completed] ∧
      run.archive.data.HoldsCompleted stamps.fresh id result := by
  intro run
  have hrun : run = analyze host generator settings fates stamps id archive state := rfl
  unfold analyze at hrun
  rcases beginRun_cases archive fates.begin stamps id with
    ⟨m, hwhy | hwhy, -⟩ | ⟨r', k, hr', -, hk, ⟨x, hx, -⟩ | ⟨-, hb⟩⟩
  · rw [hr] at hwhy
    cases hwhy
  · exact absurd hbegin hwhy
  · rw [hidle] at hx
    cases hx
  obtain rfl : r = r' := Option.some.inj (hr.symm.trans hr')
  have hfinish' : Archive.Writes ⟨archive.data.started stamps.fresh id stamps.begun, k⟩ fates.finish := by
    simpa only [Archive.Writes, hk] using hfinish
  have ha : (Archive.mk (archive.data.started stamps.fresh id stamps.begun) k).data.analysis?
      (Analysis.begun stamps.fresh id stamps.begun).id = some (.begun stamps.fresh id stamps.begun) :=
    Store.analysis?_started hfresh id stamps.begun
  rcases conclude_cases ha rfl fates stamps (conduct host generator settings r.fullName state).result with
    ⟨result', k', hok', -, hend⟩ | ⟨e, hnot, -⟩
  · obtain rfl : result = result' := Except.ok.inj (hok.symm.trans hok')
    simp only [hb, hend] at hrun
    rw [hrun]
    exact ⟨rfl, holdsCompleted_ended ha hr stamps.ended result⟩
  · exact absurd hfinish' (hnot result hok)

/-! ## Mending the stages that fail -/

/-- A reply that a stage takes. -/
def Stage.reply : Stage → String
  | features => "\x7b\"features\": []\x7d"
  | layout => "\x7b\"architecture\": \"library\"\x7d"
  | techStack => "\x7b\"languages\": []\x7d"
  | summary => "None."

theorem Stage.accepts_reply (stage : Stage) : stage.Accepts stage.reply := by
  cases stage with
  | features => exact ⟨_, _, rfl, rfl⟩
  | layout => exact ⟨_, _, rfl, rfl⟩
  | techStack => exact ⟨_, _, rfl, rfl⟩
  | summary => rfl

@[simp] theorem Stage.label_request (s : Snapshot) (found : Overview.Findings) (stage : Stage) :
    (stage.request s found).label = stage.label := by
  cases stage <;> rfl

/-- Different stages ask different things. -/
theorem Stage.request_injective (s : Snapshot) (found : Overview.Findings) : (request s found).Injective := by
  intro a b h
  have hlabel : a.label = b.label := by
    simpa using congrArg Request.label h
  revert hlabel
  cases a <;> cases b <;> simp [label]

open Classical in
/-- **Every generator can be mended.** -/
theorem exists_mends (ask : Request → Except Failure String) (s : Snapshot) (found : Overview.Findings) :
    ∃ sound, Mends ask sound s found := by
  refine ⟨fun q => if h : ∃ stage : Stage, stage.request s found = q ∧ stage.Fails ask s found then
    .ok h.choose.reply else ask q, fun stage _ hfails => ?_, fun stage _ hfails => ?_⟩
  · by_cases hold : stage.Fails ask s found
    · have h : ∃ stage' : Stage, stage'.request s found = stage.request s found ∧ stage'.Fails ask s found :=
        ⟨stage, rfl, hold⟩
      have hchoose : h.choose = stage := Stage.request_injective s found h.choose_spec.1
      refine hfails stage.reply ((dif_pos h).trans ?_) stage.accepts_reply
      rw [hchoose]
    · have h : ¬∃ stage' : Stage, stage'.request s found = stage.request s found ∧ stage'.Fails ask s found := by
        rintro ⟨stage', heq, hfails'⟩
        exact hold (Stage.request_injective s found heq ▸ hfails')
      exact hold fun text htext => hfails text ((dif_neg h).trans htext)
  · refine dif_neg ?_
    rintro ⟨stage', heq, hfails'⟩
    exact hfails (Stage.request_injective s found heq ▸ hfails')

/-! ## A run as a whole -/

/-- **Failing stages do not spread.** Let a run be able to begin, its host answer and its
result be written, whatever the generator replies.

* The run completes and announces steps 1 to 9.
* A stage whose request fails stores its default, and a failing overview is a sentence
  that is not empty; the degraded stages are the failing ones in the order of the run,
  and their steps are the ones announced as degraded.
* A stage whose request does not fail, the outlines and the numbers are what the same
  run stores with a generator under which none of the first three stages fails. There
  is such a generator. -/
theorem analyze_isolated (ask : Request → Except Failure String) (hr : archive.data.repository? id = some r)
    (hidle : archive.data.running? id = none) (hfresh : ∀ x ∈ archive.data.analyses, x.id ≠ stamps.fresh)
    (hbegin : archive.Writes fates.begin) (hfinish : archive.Writes fates.finish)
    (hfetched : Fetches host settings r.fullName state s) :
    let run := fun ask => analyze host (answering σ ask) settings fates stamps id archive state
    ∃ result events, (run ask).archive.data.HoldsCompleted stamps.fresh id result ∧
      (run ask).events = events ++ [.complete stamps.fresh .completed] ∧ Numbered 9 events ∧
      Isolated ask s events result ∧
      (∃ sound, Mends ask sound s result.findings) ∧
      ∀ sound, Mends ask sound s result.findings →
        ∃ other, (run sound).archive.data.HoldsCompleted stamps.fresh id other ∧
          (¬Stage.features.Fails ask s result.findings → result.features = other.features) ∧
          (¬Stage.layout.Fails ask s result.findings → result.layout = other.layout) ∧
          (¬Stage.techStack.Fails ask s result.findings → result.techStack = other.techStack) ∧
          result.artifacts = other.artifacts ∧ result.metrics = other.metrics := by
  intro run
  obtain ⟨last, hconduct⟩ := conduct_of_fetches hfetched
  have hstored : ∀ ask, (run ask).events = (conduct host (answering σ ask) settings r.fullName state).events ++
        [.progress 9 "Analysis saved" false, .complete stamps.fresh .completed] ∧
      (run ask).archive.data.HoldsCompleted stamps.fresh id (evaluate (answering σ ask) s last).2.1 := by
    intro ask
    obtain ⟨m₁, m₂, m₃, hc⟩ := hconduct (answering σ ask)
    exact analyze_completes hr hidle hfresh hbegin hfinish (by rw [hc])
  obtain ⟨hevents, hcompleted⟩ := hstored ask
  obtain ⟨m₁, m₂, m₃, hc⟩ := hconduct (answering σ ask)
  refine ⟨_,
    (conduct host (answering σ ask) settings r.fullName state).events ++ [.progress 9 "Analysis saved" false],
    hcompleted, ?_, ?_, ?_, exists_mends .., fun sound h => ⟨_, (hstored sound).2, ?_⟩⟩
  · rw [hevents, List.append_assoc]
    rfl
  · simp [hc, Numbered, evaluate_steps, List.range'_succ]
  · refine (evaluate_isolated ask s last).of_subset fun e he => ?_
    simp only [hc, List.cons_append, List.mem_cons, List.mem_append, List.not_mem_nil, or_false] at he
    -- the stages announce themselves; the other four steps do not belong to one
    rcases he with rfl | rfl | rfl | he | rfl
    · exact Or.inr ⟨1, m₁, rfl, by decide⟩
    · exact Or.inr ⟨2, m₂, rfl, by decide⟩
    · exact Or.inr ⟨3, m₃, rfl, by decide⟩
    · exact Or.inl he
    · exact Or.inr ⟨9, _, rfl, by decide⟩
  · obtain ⟨hF, hL, hT⟩ := evaluate_mends h last
    exact ⟨hF, hL, hT, rfl, rfl⟩

/-- A generator without a reply for the features. -/
def withoutFeatures (request : Request) : Except Failure String :=
  match Stage.all.find? (·.label = request.label) with
  | some .features | none => .error (.transport "none")
  | some stage => .ok stage.reply

theorem fails_withoutFeatures_iff (s : Snapshot) (found : Overview.Findings) (stage : Stage) :
    stage.Fails withoutFeatures s found ↔ stage = .features := by
  unfold Stage.Fails withoutFeatures
  rw [Stage.label_request]
  constructor
  · intro hfails
    by_contra hother
    refine hfails stage.reply ?_ stage.accepts_reply
    cases stage with
    | features => exact absurd rfl hother
    | layout | techStack | summary => rfl
  · rintro rfl text htext
    cases htext

/-- What is fetched of one file. -/
def oneFile : Snapshot where
  fullName := "a/b"
  files := [⟨"main.py", "print(1)"⟩]
  languageStats := [("Python", 8)]

/-- **One stage of four fails**, and the rest is what it is if all succeed. -/
theorem analyze_isolated_withoutFeatures :
    failedOnce.repository? ⟨1⟩ = some (.register ⟨1⟩ default "a/b") ∧
      (∀ x ∈ failedOnce.analyses, x.id ≠ ⟨3⟩) ∧ Fetches oneFileHost {} "a/b" () oneFile ∧
      let run := fun ask => analyze oneFileHost (answering Unit ask) {} {} ⟨⟨3⟩, default, default, default⟩ ⟨1⟩
        ⟨failedOnce, .memory⟩ ()
      ∃ result sound other, (run withoutFeatures).archive.data.HoldsCompleted ⟨3⟩ ⟨1⟩ result ∧
        result.degradedStages = ["features"] ∧ result.features = {} ∧
        Mends withoutFeatures sound oneFile result.findings ∧ (run sound).archive.data.HoldsCompleted ⟨3⟩ ⟨1⟩ other ∧
        result.layout = other.layout ∧ result.techStack = other.techStack ∧ result.artifacts = other.artifacts := by
  have hr : failedOnce.repository? ⟨1⟩ = some (.register ⟨1⟩ default "a/b") := rfl
  have hfresh : ∀ x ∈ failedOnce.analyses, x.id ≠ (Stamps.mk ⟨3⟩ default default default).fresh := by decide
  have hfetched : Fetches oneFileHost {} "a/b" () oneFile := by
    have hselected : (Selection.selectFiles [⟨"main.py", .blob, none⟩] ({} : AnalysisSettings).mediumCap).take
        ({} : AnalysisSettings).maxFiles = ["main.py"] := by decide +kernel
    refine ⟨[⟨"main.py", .blob, none⟩], (), (), rfl, ?_⟩
    rw [hselected]
    simp [fetchSnapshot, fetchBatches, fetchMore, readmeAndLanguages, served, batches, oneFileHost, oneFile]
  have hbegin : Archive.Writes ⟨failedOnce, .memory⟩ ({} : Fates).begin := .inl rfl
  have hfinish : Archive.Writes ⟨failedOnce, .memory⟩ ({} : Fates).finish := .inl rfl
  obtain ⟨result, events, hstored, -, -, hisolated, ⟨sound, hmends⟩, hmended⟩ :=
    analyze_isolated withoutFeatures hr rfl hfresh hbegin hfinish hfetched
  obtain ⟨other, hother, -, hlayout, htechStack, hartifacts, -⟩ := hmended sound hmends
  have hfails := fails_withoutFeatures_iff oneFile result.findings
  have hlayoutHolds : ¬ Stage.layout.Fails withoutFeatures oneFile result.findings := by simp [hfails]
  have htechStackHolds : ¬ Stage.techStack.Fails withoutFeatures oneFile result.findings := by simp [hfails]
  refine ⟨hr, hfresh, hfetched, result, sound, other, hstored, ?_, hisolated.features ((hfails _).2 rfl), hmends, hother,
    hlayout hlayoutHolds, htechStack htechStackHolds, hartifacts⟩
  rw [hisolated.degraded, Stage.map_label_filter_all]
  simp [hfails]

end CodeAtlas
