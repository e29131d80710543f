import CodeAtlas.Analysis.Stages
import Mathlib.Data.List.Basic

/-!
# What is fetched in batches

The contents of the files of a repository are asked for batch by batch, with a pause
between two batches, and then the readme and the languages together, which are answered in
whichever order. The first question without an answer ends this. If the host answers path by
path, nothing shows how large the batches were but the questions themselves.

* `length_batches`, `length_le_of_mem_batches`: how many batches there are, and of what size.
* `noting`: a host that notes what is asked of it.
* `FollowsPlan`: the steps of a plan, taken in order until one fails.
* `Notes.chain`: what is noted of questions one after the other.
* `notes_fetchSnapshot`: the plan of what is fetched.
* `fetchSnapshot_eq_ok`: the files.
* `fetchSnapshot_batched`: **batches are invisible.**
-/

namespace CodeAtlas

variable {α β σ : Type}

/-! ## Batches -/

/-- **The number of batches**: that of the members by the size, rounded up. -/
theorem length_batches (size : ℕ) (l : List α) :
    (batches size l).length = (l.length + max 1 size - 1) / max 1 size := by
  fun_induction batches size l with
  | case1 =>
    have hless : max 1 size - 1 < max 1 size := by omega
    simp [Nat.div_eq_of_lt hless]
  | case2 a r ih =>
    rw [List.length_cons, ih, List.length_drop, List.length_cons]
    have hpos : 0 < max 1 size := by omega
    rcases Nat.lt_or_ge r.length (size - 1) with hshort | hlong
    · -- nothing is left for another batch
      have hnone : (r.length - (size - 1) + max 1 size - 1) / max 1 size = 0 := Nat.div_eq_of_lt (by omega)
      have hone : (r.length + 1 + max 1 size - 1) / max 1 size = 1 :=
        Nat.div_eq_of_lt_le (by omega) (by omega)
      rw [hnone, hone]
    · have hsum : r.length + 1 + max 1 size - 1 = r.length - (size - 1) + max 1 size - 1 + max 1 size := by omega
      rw [hsum, Nat.add_div_right _ hpos]

theorem length_le_of_mem_batches {size : ℕ} {l b : List α} (h : b ∈ batches size l) :
    b ≠ [] ∧ b.length ≤ max 1 size := by
  fun_induction batches size l with
  | case1 => cases h
  | case2 a r ih =>
    rcases List.mem_cons.1 h with rfl | h
    · refine ⟨List.cons_ne_nil _ _, ?_⟩
      rw [List.length_cons, List.length_take]
      omega
    · exact ih h

/-! ## Hosts that note what is asked -/

/-- What is asked of a host. -/
inductive HostStep where
  | tree (fullName : String)
  | contents (fullName : String) (paths : List String)
  | readme (fullName : String)
  | languages (fullName : String)
  | pause (milliseconds : ℕ)
deriving Repr, DecidableEq

/-- What has been asked of a host, and the error if there was no answer. A question whose answer
is not awaited is not among it. -/
abbrev HostLog := List (HostStep × Option HostError)

/-- The error of a question without an answer. -/
def failure? : Except HostError α → Option HostError
  | .ok _ => none
  | .error e => some e

/-- The answer to a step, noted. -/
def noted (step : HostStep) (log : HostLog) (answer : Except HostError α × σ) : Except HostError α × HostLog × σ :=
  (answer.1, log ++ [(step, failure? answer.1)], answer.2)

/-- **A host that notes what is asked of it**, and answers as before. -/
def noting (host : Host σ) : Host (HostLog × σ) where
  tree fullName s := noted (.tree fullName) s.1 (host.tree fullName s.2)
  contents fullName paths s := noted (.contents fullName paths) s.1 (host.contents fullName paths s.2)
  readme fullName s := noted (.readme fullName) s.1 (host.readme fullName s.2)
  languages fullName s := noted (.languages fullName) s.1 (host.languages fullName s.2)
  pause milliseconds s := (s.1 ++ [(.pause milliseconds, none)], host.pause milliseconds s.2)
  languagesFirst fullName s := host.languagesFirst fullName s.2

/-! ## Plans -/

/-- **The steps of a plan are taken in order until one fails.** If none fails, all are
taken, and there is a result. The one that fails is the last one that is taken, and its
error is what comes out. -/
def FollowsPlan (plan : List HostStep) (taken : HostLog) (result : Except HostError α) : Prop :=
  (∃ a, result = .ok a ∧ taken = plan.map fun step => (step, none)) ∨
    ∃ front step rest e, result = .error e ∧ plan = front ++ step :: rest ∧
      taken = (front.map fun step => (step, none)) ++ [(step, some e)]

namespace FollowsPlan

variable {plan more : List HostStep} {taken later : HostLog} {result : Except HostError α} {final : Except HostError β}

theorem nil (a : α) : FollowsPlan [] [] (.ok a : Except HostError α) := Or.inl ⟨a, rfl, rfl⟩

/-- A plan of one step. -/
theorem single (step : HostStep) (result : Except HostError α) : FollowsPlan [step] [(step, failure? result)] result := by
  cases result with
  | ok a => exact Or.inl ⟨a, rfl, rfl⟩
  | error e => exact Or.inr ⟨[], step, [], e, rfl, rfl, rfl⟩

/-- **A plan in two parts**, of which the second is begun only if the first succeeds. -/
theorem append (h : FollowsPlan plan taken result) (hok : ∀ a, result = .ok a → FollowsPlan more later final)
    (herror : ∀ e, result = .error e → later = [] ∧ final = .error e) :
    FollowsPlan (plan ++ more) (taken ++ later) final := by
  rcases h with ⟨a, ha, rfl⟩ | ⟨front, step, rest, e, he, rfl, rfl⟩
  · rcases hok a ha with ⟨b, hb, rfl⟩ | ⟨front, step, rest, e, he, rfl, rfl⟩
    · exact Or.inl ⟨b, hb, by rw [List.map_append]⟩
    · exact Or.inr ⟨plan ++ front, step, rest, e, he, by simp, by simp⟩
  · obtain ⟨rfl, hfinal⟩ := herror e he
    exact Or.inr ⟨front, step, rest ++ more, e, hfinal, by simp, by simp⟩

/-- **It fails exactly if one of its steps does.** -/
theorem error_iff (h : FollowsPlan plan taken result) (e : HostError) :
    result = .error e ↔ ∃ step, (step, some e) ∈ taken := by
  rcases h with ⟨a, rfl, rfl⟩ | ⟨front, step, rest, e', rfl, -, rfl⟩
  · simp
  · constructor
    · intro he
      obtain rfl : e' = e := by simpa using he
      exact ⟨step, by simp⟩
    · rintro ⟨s, hs⟩
      have hlast : s = step ∧ e = e' := by simpa using hs
      rw [hlast.2]

theorem eq_plan (h : FollowsPlan plan taken result) {a : α} (hresult : result = .ok a) :
    taken.map Prod.fst = plan := by
  rcases h with ⟨_, -, rfl⟩ | ⟨front, step, rest, e, he, -, -⟩
  · simp [Function.comp_def]
  · rw [he] at hresult
    cases hresult

end FollowsPlan

/-! ## Questions one after the other -/

/-- Asks something, and goes on with the answer if there is one. -/
def andThen (ask : σ → Except HostError α × σ) (next : α → σ → Except HostError β × σ) (state : σ) :
    Except HostError β × σ :=
  match ask state with
  | (.error e, state) => (.error e, state)
  | (.ok a, state) => next a state

/-- An answer to what is asked in two steps has an answer to the first one. -/
theorem andThen_eq_ok {ask : σ → Except HostError α × σ} {next : α → σ → Except HostError β × σ} {state last : σ}
    {b : β} (h : andThen ask next state = (.ok b, last)) :
    ∃ a after, ask state = (.ok a, after) ∧ next a after = (.ok b, last) := by
  unfold andThen at h
  rcases hanswer : ask state with ⟨e | a, after⟩
  · rw [hanswer] at h
    cases h
  · rw [hanswer] at h
    exact ⟨a, after, rfl, h⟩

/-- **What is noted of something asked** in a state follows a plan, and nothing else changes. -/
def Notes (plan : List HostStep) (ask : σ → Except HostError α × σ)
    (asked : HostLog × σ → Except HostError α × HostLog × σ) (state : σ) : Prop :=
  ∀ log, ∃ taken, asked (log, state) = ((ask state).1, log ++ taken, (ask state).2) ∧
    FollowsPlan plan taken (ask state).1

namespace Notes

variable {plan more : List HostStep} {ask : σ → Except HostError α × σ}
  {asked : HostLog × σ → Except HostError α × HostLog × σ} {state : σ}

/-- One question. -/
theorem question (step : HostStep) (ask : σ → Except HostError α × σ) (state : σ) :
    Notes [step] ask (fun s => noted step s.1 (ask s.2)) state :=
  fun _ => ⟨[(step, failure? (ask state).1)], rfl, .single step _⟩

/-- Nothing is asked. -/
theorem answer (a : α) (state : σ) : Notes [] (fun s => (.ok a, s)) (fun s => (.ok a, s)) state :=
  fun _ => ⟨[], by simp, .nil a⟩

/-- A pause before something is asked. -/
theorem paused (host : Host σ) (delay : ℕ) (state : σ) (h : Notes plan ask asked (host.pause delay state)) :
    Notes (.pause delay :: plan) (fun s => ask (host.pause delay s)) (fun s => asked ((noting host).pause delay s))
      state := by
  intro log
  obtain ⟨taken, htaken, hplan⟩ := h (log ++ [(.pause delay, none)])
  have hpause : FollowsPlan [.pause delay] [(.pause delay, none)] (.ok () : Except HostError Unit) := .single _ _
  refine ⟨(.pause delay, none) :: taken, ?_, hpause.append (fun _ _ => hplan) (by simp)⟩
  rw [List.append_cons, ← htaken]
  rfl

/-- **Something else is asked if there is an answer.** -/
theorem chain (h : Notes plan ask asked state) {next : α → σ → Except HostError β × σ}
    {later : α → HostLog × σ → Except HostError β × HostLog × σ}
    (hnext : ∀ a after, ask state = (.ok a, after) → Notes more (next a) (later a) after) :
    Notes (plan ++ more) (andThen ask next) (andThen asked later) state := by
  intro log
  obtain ⟨taken, htaken, hplan⟩ := h log
  unfold andThen
  rw [htaken]
  rcases hanswer : ask state with ⟨e | a, after⟩
  · rw [hanswer] at hplan
    have hstopped : FollowsPlan (plan ++ more) (taken ++ []) (.error e : Except HostError β) :=
      hplan.append (by simp) (by simp)
    rw [List.append_nil] at hstopped
    exact ⟨taken, rfl, hstopped⟩
  · rw [hanswer] at hplan
    obtain ⟨taken', htaken', hplan'⟩ := hnext a after hanswer (log ++ taken)
    refine ⟨taken ++ taken', ?_, hplan.append (fun b hb => ?_) (by simp)⟩
    · dsimp only
      rw [htaken', List.append_assoc]
    · exact hplan'

end Notes

/-! ## What is fetched -/

section Plans

variable (host : Host σ) (fullName : String) (delay : ℕ)

theorem fetchMore_cons (b : List String) (bs : List (List String)) :
    fetchMore host fullName delay (b :: bs) =
      andThen (fun s => host.contents fullName b (host.pause delay s)) fun l =>
        andThen (fetchMore host fullName delay bs) fun files s => (.ok (served l ++ files), s) := by
  funext state
  simp only [fetchMore, andThen]
  rcases host.contents fullName b (host.pause delay state) with ⟨e | l, after⟩
  · rfl
  · dsimp only
    rcases fetchMore host fullName delay bs after with ⟨e | files, last⟩ <;> rfl

theorem fetchBatches_cons (b : List String) (bs : List (List String)) :
    fetchBatches host fullName delay (b :: bs) =
      andThen (host.contents fullName b) fun l =>
        andThen (fetchMore host fullName delay bs) fun files s => (.ok (served l ++ files), s) := by
  funext state
  simp only [fetchBatches, andThen]
  rcases host.contents fullName b state with ⟨e | l, after⟩
  · rfl
  · dsimp only
    rcases fetchMore host fullName delay bs after with ⟨e | files, last⟩ <;> rfl

/-- The readme and the languages, the one that is answered first before the other. -/
theorem readmeAndLanguages_eq (state : σ) :
    readmeAndLanguages host fullName state =
      if host.languagesFirst fullName state then
        andThen (host.languages fullName) (fun languageStats =>
          andThen (host.readme fullName) fun readme s => (.ok (readme, languageStats), s)) state
      else
        andThen (host.readme fullName) (fun readme =>
          andThen (host.languages fullName) fun languageStats s => (.ok (readme, languageStats), s)) state := by
  unfold readmeAndLanguages andThen
  split_ifs
  · rcases host.languages fullName state with ⟨e | languageStats, after⟩
    · rfl
    dsimp only
    rcases host.readme fullName after with ⟨e | readme, last⟩ <;> rfl
  · rcases host.readme fullName state with ⟨e | readme, after⟩
    · rfl
    dsimp only
    rcases host.languages fullName after with ⟨e | languageStats, last⟩ <;> rfl

theorem fetchSnapshot_eq (settings : AnalysisSettings) (paths : List String) :
    fetchSnapshot host settings fullName paths =
      andThen (fetchBatches host fullName settings.batchDelay (batches settings.batchSize paths)) fun files =>
        andThen (readmeAndLanguages host fullName) fun about s =>
          (.ok { fullName, files, readme := about.1, languageStats := about.2 }, s) := by
  funext state
  simp only [fetchSnapshot, andThen]
  rcases fetchBatches host fullName settings.batchDelay (batches settings.batchSize paths) state with ⟨e | files, after⟩
  · rfl
  dsimp only
  rcases readmeAndLanguages host fullName after with ⟨e | about, last⟩ <;> rfl

/-- Batches after the first one have a pause before them. -/
theorem notes_fetchMore (bs : List (List String)) (state : σ) :
    Notes (bs.flatMap fun b => [.pause delay, .contents fullName b]) (fetchMore host fullName delay bs)
      (fetchMore (noting host) fullName delay bs) state := by
  induction bs generalizing state with
  | nil => exact .answer [] state
  | cons b bs ih =>
    have hfirst := (Notes.question (.contents fullName b) (host.contents fullName b) _).paused host delay state
    have hrest (l : List (String × Option String)) (after : σ) :=
      (ih after).chain fun files last _ => .answer (served l ++ files) last
    have hboth := hfirst.chain fun l after _ => hrest l after
    rw [List.append_nil] at hboth
    rw [fetchMore_cons, fetchMore_cons]
    exact hboth

theorem intersperse_cons (separator a : α) (l : List α) :
    (a :: l).intersperse separator = a :: l.flatMap fun b => [separator, b] := by
  induction l generalizing a with
  | nil => rfl
  | cons b l ih => simp [ih]

/-- What is asked for batches: one question for each, and a pause between two of them. -/
theorem notes_fetchBatches (bs : List (List String)) (state : σ) :
    Notes ((bs.map (.contents fullName)).intersperse (.pause delay)) (fetchBatches host fullName delay bs)
      (fetchBatches (noting host) fullName delay bs) state := by
  cases bs with
  | nil => exact .answer [] state
  | cons b bs =>
    have hfirst := Notes.question (.contents fullName b) (host.contents fullName b) state
    have hrest (l : List (String × Option String)) (after : σ) :=
      (notes_fetchMore host fullName delay bs after).chain fun files last _ => .answer (served l ++ files) last
    have hboth := hfirst.chain fun l after _ => hrest l after
    rw [List.append_nil] at hboth
    rw [List.map_cons, intersperse_cons, List.flatMap_map, fetchBatches_cons, fetchBatches_cons]
    exact hboth

/-- What is asked together is answered in one of two orders. -/
theorem notes_readmeAndLanguages (state : σ) :
    ∃ about : List HostStep, about.Perm [.readme fullName, .languages fullName] ∧
      Notes about (readmeAndLanguages host fullName) (readmeAndLanguages (noting host) fullName) state := by
  have hreadme := Notes.question (.readme fullName) (host.readme fullName)
  have hlanguages := Notes.question (.languages fullName) (host.languages fullName)
  have hnoting (log : HostLog) : (noting host).languagesFirst fullName (log, state) = host.languagesFirst fullName state :=
    rfl
  by_cases hfirst : host.languagesFirst fullName state = true
  · have hboth := (hlanguages state).chain fun languageStats after _ =>
      (hreadme after).chain fun readme last _ => .answer (readme, languageStats) last
    refine ⟨_, List.Perm.swap _ _ [], fun log => ?_⟩
    rw [readmeAndLanguages_eq, readmeAndLanguages_eq, hnoting, if_pos hfirst, if_pos hfirst]
    exact hboth log
  · have hboth := (hreadme state).chain fun readme after _ =>
      (hlanguages after).chain fun languageStats last _ => .answer (readme, languageStats) last
    refine ⟨_, List.Perm.refl _, fun log => ?_⟩
    rw [readmeAndLanguages_eq, readmeAndLanguages_eq, hnoting, if_neg hfirst, if_neg hfirst]
    exact hboth log

/-- **The plan of a fetch**: the batches with pauses between them, then the readme and the
languages, in whichever order they are answered. -/
theorem notes_fetchSnapshot (settings : AnalysisSettings) (paths : List String) (state : σ) :
    ∃ about : List HostStep, about.Perm [.readme fullName, .languages fullName] ∧
      Notes (((batches settings.batchSize paths).map (.contents fullName)).intersperse (.pause settings.batchDelay) ++
        about) (fetchSnapshot host settings fullName paths) (fetchSnapshot (noting host) settings fullName paths) state := by
  have hbatches := notes_fetchBatches host fullName settings.batchDelay (batches settings.batchSize paths) state
  obtain ⟨about, hperm, habout⟩ : ∃ about : List HostStep, about.Perm [.readme fullName, .languages fullName] ∧
      ∀ files after, fetchBatches host fullName settings.batchDelay (batches settings.batchSize paths) state =
          (.ok files, after) →
        Notes about (readmeAndLanguages host fullName) (readmeAndLanguages (noting host) fullName) after := by
    rcases hfetch : fetchBatches host fullName settings.batchDelay (batches settings.batchSize paths) state with
      ⟨e | files, after⟩
    · exact ⟨_, List.Perm.refl _, nofun⟩
    · obtain ⟨about, hperm, habout⟩ := notes_readmeAndLanguages host fullName after
      refine ⟨about, hperm, ?_⟩
      rintro _ _ ⟨⟩
      exact habout
  refine ⟨about, hperm, ?_⟩
  rw [fetchSnapshot_eq, fetchSnapshot_eq]
  refine hbatches.chain fun files after hfiles => ?_
  have hlast := (habout files after hfiles).chain fun (about : Option String × List (String × ℕ)) last _ =>
    .answer ({ fullName, files, readme := about.1, languageStats := about.2 } : Snapshot) last
  rwa [List.append_nil] at hlast

end Plans

/-! ## Files -/

/-- **A host answers path by path**: if it answers, it gives one entry for each path that it
is asked for, in order, and what it gives for a path hangs on nothing else. -/
def AnswersByPath (host : Host σ) (fullName : String) (entry : String → Option String) : Prop :=
  ∀ paths state l after, host.contents fullName paths state = (.ok l, after) → l = paths.map fun p => (p, entry p)

/-- The files of the paths that a host can serve. -/
def filesAt (entry : String → Option String) (paths : List String) : List SourceFile :=
  paths.filterMap fun p => (entry p).map fun content => ⟨p, content⟩

section Files

variable {host : Host σ} {fullName : String} {entry : String → Option String}

theorem served_eq_filesAt (h : AnswersByPath host fullName entry) {paths : List String} {state after : σ}
    {l : List (String × Option String)} (hl : host.contents fullName paths state = (.ok l, after)) :
    served l = filesAt entry paths := by
  rw [h paths state l after hl, served, filesAt, List.filterMap_map]
  rfl

/-- The files of a batch, before those of the batches after it. -/
theorem batch_eq_ok {ask : σ → Except HostError (List (String × Option String)) × σ} {delay : ℕ} {b : List String}
    {bs : List (List String)} (hask : ∀ s l after, ask s = (.ok l, after) → served l = filesAt entry b)
    (hmore : ∀ s more after, fetchMore host fullName delay bs s = (.ok more, after) → more = filesAt entry bs.flatten)
    {state last : σ} {files : List SourceFile}
    (hfetch : andThen ask (fun l => andThen (fetchMore host fullName delay bs) fun more s =>
      (.ok (served l ++ more), s)) state = (.ok files, last)) :
    files = filesAt entry (b :: bs).flatten := by
  obtain ⟨l, after, hl, hfetch⟩ := andThen_eq_ok hfetch
  obtain ⟨more, after', hrest, hfetch⟩ := andThen_eq_ok hfetch
  obtain ⟨rfl, -⟩ : served l ++ more = files ∧ after' = last := by simpa using hfetch
  rw [hask state l after hl, hmore after more after' hrest, List.flatten_cons]
  exact List.filterMap_append.symm

/-- What is fetched of batches after the first one, where the host answers path by path. -/
theorem fetchMore_eq_ok (h : AnswersByPath host fullName entry) (delay : ℕ) {bs : List (List String)}
    {state last : σ} {files : List SourceFile} (hfetch : fetchMore host fullName delay bs state = (.ok files, last)) :
    files = filesAt entry bs.flatten := by
  induction bs generalizing state last files with
  | nil =>
    obtain ⟨rfl, -⟩ : [] = files ∧ state = last := by simpa [fetchMore] using hfetch
    rfl
  | cons b bs ih =>
    rw [fetchMore_cons] at hfetch
    exact batch_eq_ok (fun _ _ _ hl => served_eq_filesAt h hl) (fun _ _ _ hmore => ih hmore) hfetch

/-- **Batches together are one list of paths.** -/
theorem fetchBatches_eq_ok (h : AnswersByPath host fullName entry) (delay : ℕ) {bs : List (List String)}
    {state last : σ} {files : List SourceFile} (hfetch : fetchBatches host fullName delay bs state = (.ok files, last)) :
    files = filesAt entry bs.flatten := by
  cases bs with
  | nil =>
    obtain ⟨rfl, -⟩ : [] = files ∧ state = last := by simpa [fetchBatches] using hfetch
    rfl
  | cons b bs =>
    rw [fetchBatches_cons] at hfetch
    exact batch_eq_ok (fun _ _ _ hl => served_eq_filesAt h hl) (fun _ _ _ hmore => fetchMore_eq_ok h delay hmore) hfetch

/-- **What is fetched**, where the host answers path by path. -/
theorem fetchSnapshot_eq_ok (h : AnswersByPath host fullName entry) {settings : AnalysisSettings} {paths : List String}
    {state last : σ} {s : Snapshot} (hfetch : fetchSnapshot host settings fullName paths state = (.ok s, last)) :
    s.fullName = fullName ∧ s.files = filesAt entry paths := by
  rw [fetchSnapshot_eq] at hfetch
  obtain ⟨files, after, hfiles, hfetch⟩ := andThen_eq_ok hfetch
  obtain ⟨about, after', -, hfetch⟩ := andThen_eq_ok hfetch
  obtain ⟨rfl, -⟩ : ({ fullName, files, readme := about.1, languageStats := about.2 } : Snapshot) = s ∧
      after' = last := by
    simpa using hfetch
  refine ⟨rfl, ?_⟩
  dsimp only
  rw [fetchBatches_eq_ok h settings.batchDelay hfiles, flatten_batches]

end Files

/-! ## Batches are invisible -/

/-- **Batches are invisible.** For a host that answers path by path, whatever else it does,
some paths are fetched in batches as follows.

* Steps of the plan are taken in order until one fails, and the fetch fails exactly if one
  does, with its error.
* Otherwise each path has been asked for once and in order, in as many questions as there are
  batches, none of them empty or larger than the size of a batch, with a pause between two
  of them and none before or after; then the readme and the languages have been asked for, and
  the host has settled which of them it answered first.
* The files are those of one question for all paths, and those of a fetch in batches of any
  other size: in the order of the paths, and without those that the host cannot serve.

To note what is asked makes no difference. -/
theorem fetchSnapshot_batched (host : Host σ) (settings : AnalysisSettings) (fullName : String) (paths : List String)
    (state : σ) (entry : String → Option String) (hhost : AnswersByPath host fullName entry) :
    let size := max 1 settings.batchSize
    ∃ result last log, fetchSnapshot host settings fullName paths state = (result, last) ∧
      fetchSnapshot (noting host) settings fullName paths ([], state) = (result, log, last) ∧
      (∀ e, result = .error e ↔ ∃ step, (step, some e) ∈ log) ∧
      ∃ requests : List (List String),
        requests.flatten = paths ∧ requests.length = (paths.length + size - 1) / size ∧
        (∀ r ∈ requests, r ≠ [] ∧ r.length ≤ size) ∧
        ∃ about : List HostStep, about.Perm [.readme fullName, .languages fullName] ∧
        FollowsPlan ((requests.map (.contents fullName)).intersperse (.pause settings.batchDelay) ++ about) log result ∧
        ∀ snapshot, result = .ok snapshot →
          log.map Prod.fst = (requests.map (.contents fullName)).intersperse (.pause settings.batchDelay) ++ about ∧
          snapshot.fullName = fullName ∧
          snapshot.files = paths.filterMap (fun p => (entry p).map fun content => ⟨p, content⟩) ∧
          (∀ earlier l later, host.contents fullName paths earlier = (.ok l, later) → snapshot.files = served l) ∧
          ∀ other earlier whole later, fetchSnapshot host other fullName paths earlier = (.ok whole, later) →
            snapshot.files = whole.files := by
  intro size
  obtain ⟨about, habout, hnotes⟩ := notes_fetchSnapshot host fullName settings paths state
  obtain ⟨log, hlog, hplan⟩ := hnotes []
  rcases hfetch : fetchSnapshot host settings fullName paths state with ⟨result, last⟩
  rw [hfetch] at hlog hplan
  refine ⟨result, last, log, rfl, hlog, hplan.error_iff, batches settings.batchSize paths,
    flatten_batches settings.batchSize paths, length_batches settings.batchSize paths,
    fun r hr => length_le_of_mem_batches hr, about, habout, hplan, ?_⟩
  rintro snapshot rfl
  obtain ⟨hname, hfiles⟩ := fetchSnapshot_eq_ok hhost hfetch
  refine ⟨hplan.eq_plan rfl, hname, hfiles, ?once, ?other⟩
  case once =>
    intro earlier l later hl
    rw [hfiles, served_eq_filesAt hhost hl]
  case other =>
    intro other earlier whole later hwhole
    rw [hfiles, (fetchSnapshot_eq_ok hhost hwhole).2]

/-- A host without a file at `b`, which takes its time over the readme. -/
def gapHost : Host Unit where
  tree _ s := (.ok [], s)
  contents _ paths s := (.ok (paths.map fun p => (p, if p = "b" then none else some "text")), s)
  readme _ s := (.ok none, s)
  languages _ s := (.ok [], s)
  pause _ s := s
  languagesFirst _ _ := true

/-- **Three paths in batches of two**, of which one has no file. -/
theorem fetchSnapshot_batched_threePaths :
    AnswersByPath gapHost "x/y" (fun p => if p = "b" then none else some "text") ∧
      ∃ (snapshot : Snapshot) (log : HostLog) (requests : List (List String)),
        fetchSnapshot (noting gapHost) { batchSize := 2 } "x/y" ["a", "b", "c"] ([], ()) = (.ok snapshot, log, ()) ∧
        requests.flatten = ["a", "b", "c"] ∧ requests.length = 2 ∧
        (∃ about : List HostStep, about.Perm [.readme "x/y", .languages "x/y"] ∧
          log.map Prod.fst = (requests.map (.contents "x/y")).intersperse (.pause 250) ++ about) ∧
        snapshot.files = [⟨"a", "text"⟩, ⟨"c", "text"⟩] := by
  have hhost : AnswersByPath gapHost "x/y" (fun p => if p = "b" then none else some "text") := by
    rintro paths state l after h
    obtain ⟨rfl, -⟩ := by simpa [gapHost] using h
    rfl
  refine ⟨hhost, ?_⟩
  obtain ⟨result, last, log, hplain, hnoted, -, requests, hflat, hlength, -, about, habout, -, hok⟩ :=
    fetchSnapshot_batched gapHost { batchSize := 2 } "x/y" ["a", "b", "c"] () _ hhost
  have hresult : ∃ snapshot, result = .ok snapshot := by
    have hfetched : (fetchSnapshot gapHost { batchSize := 2 } "x/y" ["a", "b", "c"] ()).1 = result := by rw [hplain]
    rw [← hfetched]
    simp [fetchSnapshot, fetchBatches, fetchMore, readmeAndLanguages, batches, gapHost]
  obtain ⟨snapshot, rfl⟩ := hresult
  obtain ⟨hsteps, -, hfiles, -⟩ := hok snapshot rfl
  exact ⟨snapshot, log, requests, hnoted, hflat, hlength, ⟨about, habout, hsteps⟩, hfiles⟩

end CodeAtlas
