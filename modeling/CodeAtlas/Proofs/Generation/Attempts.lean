import CodeAtlas.Proofs.Generation.Delays
import Mathlib.Data.Nat.Find
import Mathlib.Order.Bounds.Defs

/-!
# The attempts for a request

A reply settles a request, and so does a failure that another attempt would not help.
Attempts are made until one of them settles the request, or until there may be no more.
What a generator has in its state does not matter for this, only the sequence of its
outcomes.

* `outcomeAt`, `stateAfter`: the outcomes of a generator that is asked again and again.
* `attemptsFrom_passed`, `attemptsFrom_last`: one attempt, with another one after it or
  not.
* `attemptsFrom_of_last`: all attempts up to the last one.
* `run_attempts`: **the attempts for every sequence of outcomes.**
-/

namespace CodeAtlas.Retry

/-! ## Outcomes -/

/-- Whether no further attempt is made after an outcome, however many there may be. -/
def settles : Except Failure String → Bool
  | .ok _ => true
  | .error e => !e.isRetryable

/-- What the attempts come to if this is the outcome of the last one. -/
def verdict (attempts : ℕ) : Except Failure String → Except Failure String
  | .ok text => .ok text
  | .error e => if e.isRetryable then .error (.exhausted attempts e.message) else .error e

/-- **A failure that may pass**: the request did not get through, or the provider was busy
or broken. -/
def Passes (e : Failure) : Prop :=
  (∃ m, e = .transport m) ∨ ∃ status body, e = .provider status body ∧ (status = 429 ∨ 500 ≤ status)

variable {o : Except Failure String}

theorem isRetryable_iff {e : Failure} : e.isRetryable = true ↔ Passes e := by
  cases e <;> simp [Failure.isRetryable, Passes]

theorem settles_eq_false_iff : settles o = false ↔ ∃ e, o = .error e ∧ e.isRetryable = true := by
  cases o <;> simp [settles]

theorem verdict_of_settles (h : settles o = true) (attempts : ℕ) : verdict attempts o = o := by
  cases o with
  | ok text => rfl
  | error e =>
    have he : e.isRetryable = false := by simpa [settles] using h
    simp [verdict, he]

/-! ## A generator that is asked again and again -/

section Sequence

variable {σ : Type}

/-- The state after a number of attempts. -/
def stateAfter (inner : Generator σ) (request : Request) (state : σ) : ℕ → σ
  | 0 => state
  | k + 1 => (inner request (stateAfter inner request state k)).2

/-- The outcome of each attempt, the first one at 0. -/
def outcomeAt (inner : Generator σ) (request : Request) (state : σ) (k : ℕ) : Except Failure String :=
  (inner request (stateAfter inner request state k)).1

/-- A generator that goes through a sequence of outcomes and counts the requests. -/
def replaying (outcomes : ℕ → Except Failure String) : Generator ℕ := fun _ calls => (outcomes calls, calls + 1)

theorem stateAfter_replaying (outcomes : ℕ → Except Failure String) (request : Request) (k : ℕ) :
    stateAfter (replaying outcomes) request 0 k = k := by
  induction k with
  | zero => rfl
  | succ k ih => rw [stateAfter, ih]; rfl

/-- Every sequence is that of a generator. -/
theorem outcomeAt_replaying (outcomes : ℕ → Except Failure String) (request : Request) (k : ℕ) :
    outcomeAt (replaying outcomes) request 0 k = outcomes k := by
  rw [outcomeAt, stateAfter_replaying]
  rfl

/-! ## Attempt by attempt -/

variable {delay : ℕ → Except DelayFault ℕ} {last left k : ℕ} {inner : Generator σ} {request : Request} {state : σ}

/-- **An attempt that fails and is not the last one** is followed by its delay and the next
attempt. -/
theorem attemptsFrom_passed (houtcome : settles (outcomeAt inner request state k) = false) (hlast : k + 1 < last)
    {d : ℕ} (hdelay : delay (k + 1) = .ok d) (delays : List ℕ) :
    attemptsFrom delay last inner request (left + 1) (k + 1) delays (stateAfter inner request state k) =
      attemptsFrom delay last inner request left (k + 2) (d :: delays) (stateAfter inner request state (k + 1)) := by
  obtain ⟨e, he, hretry⟩ := settles_eq_false_iff.1 houtcome
  rw [attemptsFrom, stateAfter]
  unfold outcomeAt at he
  generalize inner request (stateAfter inner request state k) = answer at he ⊢
  obtain ⟨o, after⟩ := answer
  obtain rfl : o = .error e := he
  have hmore : ¬last ≤ k + 1 := by omega
  simp [hretry, hmore, hdelay]

/-- **An attempt that settles the request, or the last one there may be**, is followed by
none. -/
theorem attemptsFrom_last (h : settles (outcomeAt inner request state k) = true ∨ last ≤ k + 1) (delays : List ℕ) :
    attemptsFrom delay last inner request (left + 1) (k + 1) delays (stateAfter inner request state k) =
      .ok ⟨verdict (k + 1) (outcomeAt inner request state k), delays.reverse,
        stateAfter inner request state (k + 1)⟩ := by
  rw [attemptsFrom, stateAfter]
  unfold outcomeAt at h ⊢
  generalize inner request (stateAfter inner request state k) = answer at h ⊢
  rcases answer with ⟨e | text, after⟩
  · cases hretry : e.isRetryable with
    | false => simp [verdict, hretry]
    | true =>
      have hlast : last ≤ k + 1 := by simpa [settles, hretry] using h
      simp [verdict, hretry, hlast]
  · rfl

/-- **All attempts up to the last one.** How many of them were allowed for does not matter,
if it was enough. -/
theorem attemptsFrom_of_last {f : ℕ → ℕ} (hdelay : ∀ n, 1 ≤ n → n < last → delay n = .ok (f n))
    (hbefore : ∀ i < k, settles (outcomeAt inner request state i) = false ∧ i + 1 < last)
    (hlast : settles (outcomeAt inner request state k) = true ∨ last ≤ k + 1) {j : ℕ} (hj : j ≤ k)
    (hleft : k < j + left) {delays : List ℕ} (hdelays : delays.reverse = (List.range' 1 j).map f) :
    attemptsFrom delay last inner request left (j + 1) delays (stateAfter inner request state j) =
      .ok ⟨verdict (k + 1) (outcomeAt inner request state k), (List.range' 1 k).map f,
        stateAfter inner request state (k + 1)⟩ := by
  induction left generalizing j delays with
  | zero => omega
  | succ left ih =>
    rcases Nat.eq_or_lt_of_le hj with rfl | hlt
    · rw [attemptsFrom_last hlast, hdelays]
    · obtain ⟨hfails, hmore⟩ := hbefore j hlt
      rw [attemptsFrom_passed hfails hmore (hdelay (j + 1) (by omega) hmore)]
      refine ih hlt (by omega) ?_
      rw [List.reverse_cons, hdelays, List.range'_concat, List.map_append, List.map_singleton, Nat.one_mul,
        Nat.add_comm 1 j]

end Sequence

/-! ## All attempts -/

/-- There is a last attempt: the first one that settles the request, or the last one there
may be. -/
theorem exists_last (outcomes : ℕ → Except Failure String) {n : ℕ} (hn : 1 ≤ n) :
    ∃ k < n, (settles (outcomes k) = true ∨ k + 1 = n) ∧ ∀ i < k, settles (outcomes i) = false := by
  have hex : ∃ k, settles (outcomes k) = true ∨ k + 1 = n := ⟨n - 1, Or.inr (by omega)⟩
  refine ⟨Nat.find hex, ?_, Nat.find_spec hex, ?_⟩
  · have hle : Nat.find hex ≤ n - 1 := Nat.find_min' hex (Or.inr (by omega))
    omega
  · intro i hi
    have hnot := Nat.find_min hex hi
    push Not at hnot
    simpa using hnot.1

/-- **The attempts for a request.** If there is a delay after every attempt but the last one
there may be, then the attempts end, whatever the sequence of their outcomes, after at most
as many of them as the policy says, and one at least. They end with the first outcome that
settles the request, and come to that outcome; or else with the last attempt, and then they
come to the text of its failure. Between them are the delays of the policy in order. No
attempt follows a failure that cannot pass. Nothing but the outcomes decides about this, and
no bound on the attempts but that of the policy ends them. -/
theorem run_attempts (p : Policy) (hdelays : ∀ n, 1 ≤ n → n < p.maxAttempts → ∃ d, p.delay n = .ok d)
    (request : Request) (outcomes : ℕ → Except Failure String) :
    let n := max 1 p.maxAttempts
    ∃ (c : ℕ) (trial : Trial ℕ), p.run (replaying outcomes) request 0 = .ok trial ∧
      trial.state = c ∧ 1 ≤ c ∧ c ≤ n ∧
      ((IsLeast {i | 1 ≤ i ∧ i ≤ n ∧ settles (outcomes (i - 1)) = true} c ∧ trial.outcome = outcomes (c - 1)) ∨
        (∀ i, 1 ≤ i → i ≤ n → settles (outcomes (i - 1)) = false) ∧ c = n ∧
          ∃ e, outcomes (n - 1) = .error e ∧ trial.outcome = .error (.exhausted n e.message)) ∧
      trial.delays.map .ok = (List.range' 1 (c - 1)).map p.delay ∧
      (∀ i, 1 ≤ i → i < c → ∃ e, outcomes (i - 1) = .error e ∧ Passes e) ∧
      (∀ (σ : Type) (inner : Generator σ) (state : σ), (∀ i, outcomeAt inner request state i = outcomes i) →
        p.run inner request state = .ok ⟨trial.outcome, trial.delays, stateAfter inner request state c⟩) ∧
      ∀ left, n ≤ left →
        attemptsFrom p.delay p.maxAttempts (replaying outcomes) request left 1 [] 0 = .ok trial := by
  intro n
  have hdelays' : ∀ i, ∃ d, 1 ≤ i → i < p.maxAttempts → p.delay i = .ok d := by
    intro i
    by_cases hi : 1 ≤ i ∧ i < p.maxAttempts
    · obtain ⟨d, hd⟩ := hdelays i hi.1 hi.2
      exact ⟨d, fun _ _ => hd⟩
    · exact ⟨0, fun h1 h2 => absurd ⟨h1, h2⟩ hi⟩
  choose f hf using hdelays'
  obtain ⟨k, hk, hlast, hbefore⟩ := exists_last outcomes (n := n) (le_max_left _ _)
  -- any generator with these outcomes goes the same way, with any number of attempts allowed for
  have hall : ∀ (σ : Type) (inner : Generator σ) (state : σ) (left : ℕ),
      (∀ i, outcomeAt inner request state i = outcomes i) → n ≤ left →
      attemptsFrom p.delay p.maxAttempts inner request left 1 [] state =
        .ok ⟨verdict (k + 1) (outcomes k), (List.range' 1 k).map f, stateAfter inner request state (k + 1)⟩ := by
    intro σ inner state left hsequence hleft
    rw [← hsequence k]
    refine attemptsFrom_of_last hf ?_ ?_ (Nat.zero_le k) (by omega) rfl
    · intro i hi
      rw [hsequence]
      exact ⟨hbefore i hi, by omega⟩
    · rw [hsequence]
      exact hlast.imp_right fun h => by omega
  have hreplayed := fun left => hall ℕ (replaying outcomes) 0 left (outcomeAt_replaying outcomes request)
  rw [stateAfter_replaying] at hreplayed
  refine ⟨k + 1, _, hreplayed n le_rfl, rfl, by omega, by omega, ?outcome, ?delays, ?follows, ?states, hreplayed⟩
  case outcome =>
    cases hsettles : settles (outcomes k) with
    | true =>
      refine Or.inl ⟨⟨⟨by omega, by omega, hsettles⟩, ?_⟩, verdict_of_settles hsettles _⟩
      rintro i ⟨hi, -, hi'⟩
      by_contra! hlt
      rw [hbefore (i - 1) (by omega)] at hi'
      cases hi'
    | false =>
      have hn : k + 1 = n := hlast.resolve_left (by simp [hsettles])
      obtain ⟨e, he, hretry⟩ := settles_eq_false_iff.1 hsettles
      refine Or.inr ⟨?_, hn, e, ?_, ?_⟩
      · intro i hi hin
        rcases Nat.eq_or_lt_of_le (by omega : i - 1 ≤ k) with heq | hlt
        · rwa [heq]
        · exact hbefore (i - 1) hlt
      · rw [← hn]
        exact he
      · simp only [he, verdict, hretry, if_true, hn]
  case delays =>
    rw [List.map_map]
    refine List.map_congr_left fun i hi => ?_
    rw [List.mem_range'_1] at hi
    exact (hf i hi.1 (by omega)).symm
  case follows =>
    intro i hi hik
    obtain ⟨e, he, hretry⟩ := settles_eq_false_iff.1 (hbefore (i - 1) (by omega))
    exact ⟨e, he, isRetryable_iff.1 hretry⟩
  case states =>
    intro σ inner state hsequence
    exact hall σ inner state n hsequence le_rfl

/-- A provider that is busy twice. -/
def busyTwice (i : ℕ) : Except Failure String := if i < 2 then .error (.provider 503 "busy") else .ok "done"

/-- **The third attempt gets through**, half a second and a second later. -/
theorem run_attempts_busyTwice :
    (∀ n, 1 ≤ n → n < (policyOf {}).maxAttempts → ∃ d, (policyOf {}).delay n = .ok d) ∧
      ∃ trial, (policyOf {}).run (replaying busyTwice) default 0 = .ok trial ∧ trial.outcome = .ok "done" ∧
        trial.state = 3 ∧ trial.delays = [500000000, 1000000000] := by
  have hdelay : ∀ n, 1 ≤ n → n < (policyOf {}).maxAttempts → (policyOf {}).delay n = .ok (doubled 500 n) := by
    intro n hn hlt
    have hlt : n < 3 := hlt
    have hfits : Fits 500 n := Fits.of_le (n := 2) (by decide) (by omega)
    have hdelay : (policyOf {}).delay n = if Fits 500 n then .ok (doubled 500 n) else .error .tooBig :=
      delay_of_le (by decide) hn (by omega)
    rwa [if_pos hfits] at hdelay
  have hdelays : ∀ n, 1 ≤ n → n < (policyOf {}).maxAttempts → ∃ d, (policyOf {}).delay n = .ok d :=
    fun n hn hlt => ⟨_, hdelay n hn hlt⟩
  refine ⟨hdelays, ?_⟩
  obtain ⟨c, trial, hrun, hstate, -, -, hends, hbetween, -⟩ := run_attempts (policyOf {}) hdelays default busyTwice
  have hthird : settles (busyTwice 2) = true := rfl
  have hc : c = 3 ∧ trial.outcome = busyTwice (c - 1) := by
    rcases hends with ⟨⟨⟨hpos, hle, hsettles⟩, -⟩, houtcome⟩ | ⟨hnone, -⟩
    · have hle : c ≤ 3 := hle
      refine ⟨?_, houtcome⟩
      by_contra hne
      have hbusy : busyTwice (c - 1) = .error (.provider 503 "busy") := if_pos (by omega)
      rw [hbusy] at hsettles
      cases hsettles
    · have hlate := hnone 3 (by decide) (by decide)
      rw [hthird] at hlate
      cases hlate
  obtain ⟨rfl, houtcome⟩ := hc
  refine ⟨trial, hrun, houtcome, hstate, ?_⟩
  have hwaited : trial.delays.map Except.ok = [500000000, 1000000000].map (Except.ok (ε := DelayFault)) := by
    rw [hbetween]
    simp only [Nat.add_one_sub_one, List.range'_succ, List.range'_zero, List.map_cons, List.map_nil]
    rw [hdelay 1 (by decide) (by decide), hdelay 2 (by decide) (by decide)]
    rfl
  exact (List.map_injective_iff.2 fun _ _ => Except.ok.inj) hwaited

end CodeAtlas.Retry
