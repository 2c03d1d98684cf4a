import Mathlib.Data.List.Nodup

/-!
# Job queues that remember

A queue of jobs under ids of the caller's choice.  A job is pending until it finishes with
one of two outcomes, and a finished job stays known for as long as the queue's retention
keeps it: all jobs with an outcome, or the latest few.  Adding a job whose id is known does
nothing.

A queue is determined by its history, latest event first.  `knows_iff` reads off the history
what the queue knows: only the last finish of an id counts, and how many jobs have finished
with the same outcome since.

Retention is what makes a queue forget: with a limit, an id may be added again once enough jobs
have finished after it.  Nothing here is about who runs the jobs, or how often.
-/

namespace Interaction

/-- How a job ends. -/
inductive JobOutcome
  | completed
  | failed
  deriving DecidableEq

/-- Jobs with ids `ι` and payloads `α`; the finished ones latest first.  A job that is not retained
is forgotten, with its id. -/
structure JobQueue (ι α : Type) where
  pending : List (ι × α)
  finished : JobOutcome → List (ι × α)

/-- What happens to a queue: a job is added, or a pending one is finished. -/
inductive JobEvent (ι α : Type)
  | add (id : ι) (data : α)
  | finish (outcome : JobOutcome) (id : ι)

/-- How many of the jobs that finished with an outcome are kept, `none` for all.  The two outcomes
have limits of their own. -/
abbrev Retention := JobOutcome → Option ℕ

namespace JobQueue

variable {ι α : Type}

/-- The latest jobs, as many as are kept. -/
def retain {β : Type} : Option ℕ → List β → List β
  | none, jobs => jobs
  | some n, jobs => jobs.take n

/-- Of the jobs with an outcome, the one with `n` later ones is kept. -/
def Keeps (limit : Option ℕ) (n : ℕ) : Prop := ∀ k, limit = some k → n < k

/-- The `n`-th job is kept exactly if the limit reaches that far. -/
theorem getElem?_retain {β : Type} (limit : Option ℕ) (jobs : List β) (n : ℕ) (job : β) :
    (retain limit jobs)[n]? = some job ↔ Keeps limit n ∧ jobs[n]? = some job := by
  cases limit with
  | none => simp [retain, Keeps]
  | some k =>
      simp only [retain, Keeps, Option.some.injEq, forall_eq']
      by_cases hn : n < k
      · rw [List.getElem?_take_of_lt hn, and_iff_right hn]
      · rw [List.getElem?_take_eq_none (by omega)]
        exact iff_of_false nofun fun h => hn h.1

theorem mem_of_mem_retain {β : Type} {limit : Option ℕ} {jobs : List β} {job : β}
    (h : job ∈ retain limit jobs) : job ∈ jobs := by
  cases limit with
  | none => exact h
  | some k => exact List.mem_of_mem_take h

theorem length_retain_le {β : Type} (limit : Option ℕ) (jobs : List β) :
    (retain limit jobs).length ≤ jobs.length := by
  cases limit with
  | none => exact Nat.le_refl _
  | some k => exact List.length_take_le' k jobs

/-- Nothing is dropped from a list within the limit. -/
theorem retain_of_length_le {β : Type} {limit : Option ℕ} {jobs : List β}
    (h : ∀ k, limit = some k → jobs.length ≤ k) : retain limit jobs = jobs := by
  cases limit with
  | none => rfl
  | some k => exact List.take_of_length_le (h k rfl)

/-- A place that is kept has kept places before it. -/
theorem Keeps.of_succ {limit : Option ℕ} {n : ℕ} (h : Keeps limit (n + 1)) : Keeps limit n :=
  fun k hk => Nat.lt_of_succ_lt (h k hk)

/-! ## The queue -/

/-- A queue that has never had a job. -/
def empty : JobQueue ι α := ⟨[], fun _ => []⟩

/-- The jobs with an outcome, by id. -/
def idsOf (q : JobQueue ι α) (o : JobOutcome) : List ι := (q.finished o).map Prod.fst

/-- The job is to be run. -/
def Pending (q : JobQueue ι α) (id : ι) : Prop := id ∈ q.pending.map Prod.fst

/-- A job with this id is pending or retained.  An `add` of such an id does nothing. -/
def Knows (q : JobQueue ι α) (id : ι) : Prop :=
  q.Pending id ∨ id ∈ q.idsOf .completed ∨ id ∈ q.idsOf .failed

/-- A queue knows the jobs that are pending and those that it still keeps of the finished ones. -/
theorem knows_iff_exists {q : JobQueue ι α} {id : ι} :
    q.Knows id ↔ q.Pending id ∨ ∃ o, id ∈ q.idsOf o := by
  constructor
  · rintro (hpending | hcompleted | hfailed)
    · exact .inl hpending
    · exact .inr ⟨_, hcompleted⟩
    · exact .inr ⟨_, hfailed⟩
  · rintro (hpending | ⟨o, ho⟩)
    · exact .inl hpending
    · cases o with
      | completed => exact .inr (.inl ho)
      | failed => exact .inr (.inr ho)

variable [DecidableEq ι]

instance (q : JobQueue ι α) (id : ι) : Decidable (q.Pending id) :=
  inferInstanceAs (Decidable (_ ∈ _))

instance (q : JobQueue ι α) (id : ι) : Decidable (q.Knows id) :=
  inferInstanceAs (Decidable (_ ∨ _ ∨ _))

/-- Add a job, unless its id is known. -/
def add (q : JobQueue ι α) (id : ι) (data : α) : JobQueue ι α :=
  if q.Knows id then q else { q with pending := q.pending ++ [(id, data)] }

/-- A pending job finishes. -/
def finish (r : Retention) (q : JobQueue ι α) (o : JobOutcome) (id : ι) : Option (JobQueue ι α) :=
  match q.pending.find? fun job => job.1 = id with
  | none => none
  | some job => some
      { pending := q.pending.filter fun job => job.1 ≠ id
        finished := Function.update q.finished o (retain (r o) (job :: q.finished o)) }

/-- One event.  Only a pending job can be finished, and so not every event is possible. -/
def step (r : Retention) (q : JobQueue ι α) : JobEvent ι α → Option (JobQueue ι α)
  | .add id data => some (q.add id data)
  | .finish o id => q.finish r o id

/-- The queue after a history, latest event first. -/
def after (r : Retention) : List (JobEvent ι α) → Option (JobQueue ι α)
  | [] => some empty
  | event :: history => (after r history).bind fun q => q.step r event

section Step

variable {r : Retention} {q q' : JobQueue ι α} {id : ι} {data : α}

/-- Adding a job of a known id changes nothing, whatever its data. -/
theorem add_of_knows (h : q.Knows id) : q.add id data = q := if_pos h

/-- A job of an unknown id goes behind the pending ones. -/
theorem add_of_not_knows (h : ¬ q.Knows id) :
    q.add id data = { q with pending := q.pending ++ [(id, data)] } := if_neg h

/-- What it is to finish a job: it leaves the pending ones and is the latest of those that ended
like it. -/
theorem finish_eq_some {o : JobOutcome} (h : q.finish r o id = some q') :
    ∃ data, (id, data) ∈ q.pending ∧
      q'.pending = q.pending.filter (fun job => job.1 ≠ id) ∧
      q'.finished = Function.update q.finished o (retain (r o) ((id, data) :: q.finished o)) := by
  unfold finish at h
  split at h
  · cases h
  · rename_i job hfind
    cases h
    have hid : job.1 = id := by simpa using List.find?_some hfind
    obtain ⟨id', data⟩ := job
    subst hid
    exact ⟨data, List.mem_of_find?_eq_some hfind, rfl, rfl⟩

/-- A job that is not pending is added exactly if its id is not known. -/
theorem mem_add_iff (hidle : ¬ q.Pending id) :
    (id, data) ∈ (q.add id data).pending ↔ ¬ q.Knows id := by
  constructor
  · intro hmem hknows
    rw [add_of_knows hknows] at hmem
    exact hidle (List.mem_map_of_mem hmem)
  · intro hknows
    rw [add_of_not_knows hknows]
    exact List.mem_append_right _ (List.mem_singleton_self _)

end Step

/-! ## The last finish of an id -/

/-- How the last job with this id ended, and how many have ended the same way since. -/
def lastFinish (id : ι) : List (JobEvent ι α) → Option (JobOutcome × ℕ)
  | [] => none
  | .add _ _ :: history => lastFinish id history
  | .finish o id' :: history =>
      if id' = id then some (o, 0)
      else (lastFinish id history).map fun last =>
        (last.1, if last.1 = o then last.2 + 1 else last.2)

/-- What holds of a queue after a history. -/
structure Remembers (r : Retention) (history : List (JobEvent ι α)) (q : JobQueue ι α) : Prop where
  single : (q.pending.map Prod.fst).Nodup
  apart : ∀ id o, q.Pending id → id ∉ q.idsOf o
  position : ∀ id o n, (q.idsOf o)[n]? = some id ↔
    Keeps (r o) n ∧ lastFinish id history = some (o, n)

section Remembers

variable {r : Retention} {history : List (JobEvent ι α)} {q q' : JobQueue ι α}

/-- The ids that a list of finished jobs keeps, after one more job. -/
theorem idsOf_finish {o : JobOutcome} {id : ι} (h : q.finish r o id = some q') (o' : JobOutcome) :
    q'.idsOf o' = if o' = o then retain (r o) (id :: q.idsOf o) else q.idsOf o' := by
  obtain ⟨data, -, -, hfinished⟩ := finish_eq_some h
  unfold idsOf
  rw [hfinished]
  by_cases ho : o' = o
  · subst ho
    rw [if_pos rfl, Function.update_self]
    cases r o' with
    | none => rfl
    | some k => simp [retain, List.map_take]
  · rw [if_neg ho, Function.update_of_ne ho]

/-- The finished id is not pending any more, and every other is as before. -/
theorem pending_finish {o : JobOutcome} {id id' : ι} (h : q.finish r o id = some q') :
    q'.Pending id' ↔ q.Pending id' ∧ id' ≠ id := by
  obtain ⟨data, -, hpending, -⟩ := finish_eq_some h
  unfold Pending
  rw [hpending]
  simp only [List.mem_map, List.mem_filter, decide_eq_true_eq]
  constructor
  · rintro ⟨job, ⟨hmem, hne⟩, rfl⟩
    exact ⟨⟨job, hmem, rfl⟩, hne⟩
  · rintro ⟨⟨job, hmem, rfl⟩, hne⟩
    exact ⟨job, ⟨hmem, hne⟩, rfl⟩

theorem Remembers.add (h : Remembers r history q) (id : ι) (data : α) :
    Remembers r (.add id data :: history) (q.add id data) := by
  by_cases hknows : q.Knows id
  · rw [add_of_knows hknows]
    exact ⟨h.single, h.apart, h.position⟩
  · rw [add_of_not_knows hknows]
    have hnew : id ∉ q.pending.map Prod.fst := fun hpending => hknows (.inl hpending)
    refine ⟨?_, fun id' o hpending hmem => ?_, h.position⟩
    · show ((q.pending ++ [(id, data)]).map Prod.fst).Nodup
      rw [List.map_append]
      refine List.nodup_append.mpr ⟨h.single, List.nodup_singleton _, fun a ha b hb hab => ?_⟩
      rw [hab, List.mem_singleton.mp hb] at ha
      exact hnew ha
    obtain hold | rfl : q.Pending id' ∨ id' = id := by
      simpa [Pending] using hpending
    · exact h.apart id' o hold hmem
    · exact hknows (knows_iff_exists.mpr (.inr ⟨o, hmem⟩))

theorem Remembers.finish (h : Remembers r history q) {o : JobOutcome} {id : ι}
    (hfinish : q.finish r o id = some q') : Remembers r (.finish o id :: history) q' := by
  have hpending : q.Pending id := by
    obtain ⟨data, hmem, -⟩ := finish_eq_some hfinish
    exact List.mem_map_of_mem hmem
  constructor
  · obtain ⟨data, -, hpending', -⟩ := finish_eq_some hfinish
    rw [hpending']
    exact h.single.sublist (List.filter_sublist.map Prod.fst)
  · intro id' o' hpending' hmem
    obtain ⟨hold, hne⟩ := (pending_finish hfinish).mp hpending'
    rw [idsOf_finish hfinish] at hmem
    split at hmem
    · rename_i ho
      rcases List.mem_cons.mp (mem_of_mem_retain hmem) with heq | hmem
      · exact hne heq
      · exact h.apart id' o hold hmem
    · exact h.apart id' o' hold hmem
  · intro id' o' n
    rw [idsOf_finish hfinish, lastFinish]
    by_cases ho : o' = o
    · -- the list the job joins
      subst ho
      rw [if_pos rfl, getElem?_retain]
      refine and_congr_right fun hkeeps => ?_
      cases n with
      | zero =>
          by_cases hid : id = id'
          · simp [hid]
          · simp [hid]
      | succ n =>
          rw [List.getElem?_cons_succ, h.position id' o' n]
          by_cases hid : id = id'
          · subst hid
            rw [if_pos rfl]
            refine iff_of_false (fun hlast => ?_) (by simp)
            have hmem := List.mem_of_getElem? ((h.position id o' n).mpr hlast)
            exact h.apart id o' hpending hmem
          · rw [if_neg hid, and_iff_right hkeeps.of_succ]
            cases lastFinish id' history with
            | none => simp
            | some last =>
                obtain ⟨o'', m⟩ := last
                by_cases ho : o'' = o'
                · simp [ho]
                · simp [ho]
    · -- the other list
      rw [if_neg ho, h.position id' o' n]
      refine and_congr_right fun hkeeps => ?_
      by_cases hid : id = id'
      · subst hid
        rw [if_pos rfl]
        refine iff_of_false (fun hlast => ?_) (by simp [Ne.symm ho])
        have hmem := List.mem_of_getElem? ((h.position id o' n).mpr ⟨hkeeps, hlast⟩)
        exact h.apart id o' hpending hmem
      · rw [if_neg hid]
        cases lastFinish id' history with
        | none => simp
        | some last =>
            obtain ⟨o'', m⟩ := last
            by_cases ho'' : o'' = o'
            · simp [ho'', ho]
            · simp [ho'']

/-- **A queue remembers its history.** -/
theorem remembers_of_after (h : after r history = some q) : Remembers r history q := by
  induction history generalizing q with
  | nil =>
      cases h
      exact ⟨List.nodup_nil, fun _ _ h => absurd h List.not_mem_nil,
        fun _ _ _ => by simp [idsOf, empty, lastFinish]⟩
  | cons event history ih =>
      obtain ⟨q₀, hq₀, hstep⟩ := Option.bind_eq_some_iff.mp h
      cases event with
      | add id data =>
          cases hstep
          exact (ih hq₀).add id data
      | finish o id => exact (ih hq₀).finish hstep

/-- The job that finishes is the only pending one with its id. -/
theorem mem_pending_finish (h : Remembers r history q) {o : JobOutcome} {id : ι}
    (hfinish : q.finish r o id = some q') :
    ∃ data, q'.finished = Function.update q.finished o (retain (r o) ((id, data) :: q.finished o)) ∧
      ∀ job, job ∈ q.pending ↔ job = (id, data) ∨ job ∈ q'.pending := by
  obtain ⟨data, hmem, hpending, hfinished⟩ := finish_eq_some hfinish
  refine ⟨data, hfinished, fun job => ?_⟩
  rw [hpending, List.mem_filter, decide_eq_true_eq]
  constructor
  · intro hjob
    by_cases hid : job.1 = id
    · exact .inl (List.inj_on_of_nodup_map h.single hjob hmem hid)
    · exact .inr ⟨hjob, hid⟩
  · rintro (rfl | ⟨hjob, -⟩)
    · exact hmem
    · exact hjob

/-- An id without a pending job is known exactly if its last job is retained. -/
theorem knows_iff (h : after r history = some q) {id : ι} (hidle : ¬ q.Pending id) :
    q.Knows id ↔ ∃ o n, Keeps (r o) n ∧ lastFinish id history = some (o, n) := by
  rw [knows_iff_exists, or_iff_right hidle]
  refine exists_congr fun o => ?_
  rw [List.mem_iff_getElem?]
  exact exists_congr fun n => (remembers_of_after h).position id o n

end Remembers

end JobQueue

end Interaction
