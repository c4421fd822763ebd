/-
The states of the jobs of the pool.

`Shutdown` aborts what is abortable, first in the queue and then among the running jobs.  A worker thread finds the state of
its job as it left it, or aborted, as no other thread has this job.
-/
import DDNet.Shared.JobPoolPlaces

namespace DDNet

open Lib

namespace Worker

variable {ι : Type*}

/-- The job that the thread has. -/
def job? : Worker ι → Option ι
  | .start job | .enter job | .run job | .leave job | .finish job => some job
  | _ => none

/-- The state in which the thread finds its job. -/
def StateOk (state : ι → JobState) : Worker ι → Prop
  | .start job => state job = .queued
  | .enter job => state job = .running
  | .run job | .leave job | .finish job => state job = .running ∨ state job = .aborted
  | _ => True

lemma StateOk.congr {state state' : ι → JobState} {w : Worker ι} (h : w.StateOk state)
    (hsame : ∀ j, w.job? = some j → state' j = state j) : w.StateOk state' := by
  cases w with
  | wait => trivial
  | fetch => trivial
  | check => trivial
  | exited => trivial
  | start job => exact (hsame job rfl).trans h
  | enter job => exact (hsame job rfl).trans h
  | run job =>
    rw [StateOk, hsame job rfl]
    exact h
  | leave job =>
    rw [StateOk, hsame job rfl]
    exact h
  | finish job =>
    rw [StateOk, hsame job rfl]
    exact h

variable [DecidableEq ι]

lemma countP_job (j : ι) (workers : List (Worker ι)) : workers.countP (fun w => w.job? = some j) =
    workers.countP (held j) + workers.countP (runs j) + workers.countP (left j) := by
  induction workers with
  | nil => rfl
  | cons w workers ih =>
    rw [List.countP_cons, List.countP_cons, List.countP_cons, List.countP_cons, ih]
    cases w <;> simp [job?, held, runs, left] <;> omega

lemma countP_entered_le (j : ι) (workers : List (Worker ι)) :
    workers.countP (entered j) ≤ workers.countP (runs j) + workers.countP (left j) := by
  induction workers with
  | nil => exact le_refl 0
  | cons w workers ih =>
    rw [List.countP_cons, List.countP_cons, List.countP_cons]
    cases w <;> simp [entered, runs, left] <;> omega

end Worker

namespace JobPool

variable {ι : Type*} [DecidableEq ι] {p : JobPool ι} {js : List ι}

/-! ### What `Shutdown` aborts -/

/-- The states after the abortable ones of some jobs have been aborted. -/
def abortedStates (p : JobPool ι) (jobs : List ι) (j : ι) : JobState :=
  if j ∈ jobs ∧ p.abortable j = true then .aborted else p.state j

lemma abortedStates_cons (p : JobPool ι) (job : ι) (jobs : List ι) :
    (p.abort job).abortedStates jobs = p.abortedStates (job :: jobs) := by
  ext j
  by_cases hjob : p.abortable job = true
  · by_cases hj : j = job
    · subst hj
      simp [abortedStates, abort, hjob]
    · simp [abortedStates, abort, hjob, hj]
  · by_cases hj : j = job
    · subst hj
      simp [abortedStates, abort, hjob]
    · simp [abortedStates, abort, hjob, hj]

lemma abort_eq (p : JobPool ι) (job : ι) : p.abort job = { p with state := p.abortedStates [job] } := by
  have hstate : (p.abort job).state = p.abortedStates [job] := by
    rw [← abortedStates_cons]
    funext j
    simp [abortedStates]
  rw [← hstate, abort]
  split_ifs <;> rfl

@[simp] lemma abortable_abort (p : JobPool ι) (job : ι) : (p.abort job).abortable = p.abortable := by
  rw [abort_eq]

lemma abortedStates_nil (p : JobPool ι) : p.abortedStates [] = p.state := by
  funext j
  simp [abortedStates]

lemma abortRunning_eq (p : JobPool ι) : p.abortRunning = { p with state := p.abortedStates p.running } := by
  have hall : ∀ (jobs : List ι) (p : JobPool ι), jobs.foldl abort p = { p with state := p.abortedStates jobs } := by
    intro jobs
    induction jobs with
    | nil =>
      intro p
      rw [abortedStates_nil]
      rfl
    | cons job jobs ih =>
      intro p
      rw [List.foldl_cons, ih, abortedStates_cons, abort_eq]
  exact hall p.running p

/-- The walk over the rest of the queue keeps what is not abortable. -/
lemma abortQueuedLoop_eq {kept rest : List ι} {n : ℕ} (hqueue : p.queue.Holds (kept ++ rest)) (hn : rest.length < n) :
    ∃ q, p.abortQueuedLoop n rest.head? kept.getLast? = some { p with queue := q, state := p.abortedStates rest } ∧
      q.IsQueue (kept ++ rest.filter fun j => !p.abortable j) := by
  induction rest generalizing p kept n with
  | nil =>
    obtain ⟨n, rfl⟩ := Nat.exists_eq_succ_of_ne_zero (Nat.ne_of_gt hn)
    rw [List.append_nil] at hqueue
    refine ⟨{ p.queue with last := kept.getLast? }, ?_, ?_⟩
    · rw [abortedStates_nil]
      rfl
    · rw [List.filter_nil, List.append_nil]
      exact hqueue.isQueue
  | cons job rest ih =>
    obtain ⟨n, rfl⟩ := Nat.exists_eq_succ_of_ne_zero (Nat.ne_of_gt (Nat.zero_lt_of_lt hn))
    have hnext : p.queue.next job = rest.head? := hqueue.next_eq
    have hless : rest.length < n := Nat.lt_of_succ_lt_succ hn
    rw [List.head?_cons, abortQueuedLoop, hnext]
    by_cases hjob : p.abortable job = true
    · rw [if_pos hjob]
      have hrest : LinkedQueue.Holds (p.queue.unlinkAfter kept.getLast? job) (kept ++ rest) := hqueue.unlinkAfter
      obtain ⟨q, hloop, hq⟩ := @ih { p.abort job with queue := p.queue.unlinkAfter kept.getLast? job } kept n hrest hless
      refine ⟨q, ?_, ?_⟩
      · rw [hloop]
        have hstates := abortedStates_cons p job rest
        rw [abort_eq] at hstates ⊢
        rw [← hstates]
        rfl
      · rw [List.filter_cons_of_neg (by simp [hjob])]
        rw [abort_eq] at hq
        exact hq
    · rw [if_neg hjob]
      have hlast : some job = (kept ++ [job]).getLast? := by rw [List.getLast?_concat]
      rw [List.append_cons] at hqueue
      obtain ⟨q, hloop, hq⟩ := ih hqueue hless
      refine ⟨q, ?_, ?_⟩
      · have hstates : p.abortedStates rest = p.abortedStates (job :: rest) := by
          rw [← abortedStates_cons, abort, if_neg hjob]
        rw [hlast, hloop, hstates]
      · rw [List.filter_cons_of_pos (by simp [hjob]), List.append_cons]
        exact hq

lemma abortQueued_eq (h : p.Places js) :
    ∃ q, p.abortQueued = some { p with queue := q, state := p.abortedStates js } ∧
      q.IsQueue (js.filter fun j => !p.abortable j) := by
  have hlength := h.order.length_le
  rw [List.length_append] at hlength
  obtain ⟨q, hloop, hq⟩ := @abortQueuedLoop_eq _ _ p [] js (p.added.length + 1) h.queue.toHolds (by omega)
  refine ⟨q, ?_, hq⟩
  rw [abortQueued, h.queue.first]
  exact hloop

/-! ### Every job is with one thread -/

namespace Places

lemma countP_job_le (h : p.Places js) (j : ι) :
    p.workers.countP (fun w => w.job? = some j) ≤ p.taken.count j ∧ p.taken.count j ≤ 1 := by
  have hle := h.count_le j
  obtain ⟨hheld, hran, hleft, -⟩ := h.counted j
  rw [Worker.countP_job]
  omega

lemma mem_taken (h : p.Places js) {w : Worker ι} (hw : w ∈ p.workers) {j : ι} (hj : w.job? = some j) : j ∈ p.taken := by
  have hpos : 0 < p.workers.countP (fun w => w.job? = some j) := List.countP_pos_iff.mpr ⟨w, hw, by simpa using hj⟩
  have hle := (h.countP_job_le j).1
  rw [← List.count_pos_iff]
  omega

/-- No other thread has the job of a thread. -/
lemma job_ne (h : p.Places js) {before after : List (Worker ι)} {w u : Worker ι} {j : ι}
    (hworkers : p.workers = before ++ w :: after) (hw : w.job? = some j) (hu : u ∈ before ++ after) : u.job? ≠ some j := by
  intro huj
  have hpos : 0 < (before ++ after).countP (fun w => w.job? = some j) :=
    List.countP_pos_iff.mpr ⟨u, hu, by simpa using huj⟩
  have hle := h.countP_job_le j
  rw [hworkers, List.countP_append, List.countP_cons, if_pos (by simpa using hw)] at hle
  rw [List.countP_append] at hpos
  omega

lemma mem_running_iff (h : p.Places js) {j : ι} : j ∈ p.running ↔ ∃ w ∈ p.workers, w.entered j = true := by
  rw [← List.count_pos_iff, (h.counted j).running, List.countP_pos_iff]

lemma running_taken (h : p.Places js) {j : ι} (hj : j ∈ p.running) : j ∈ p.taken := by
  obtain ⟨w, hw, hentered⟩ := h.mem_running_iff.mp hj
  refine h.mem_taken hw ?_
  cases w <;> simp_all [Worker.entered, Worker.job?]

lemma not_running_of_held (h : p.Places js) {w : Worker ι} (hw : w ∈ p.workers) {j : ι} (hj : w.held j = true) :
    j ∉ p.running := by
  obtain ⟨hheld, hran, hleft, hrunning⟩ := h.counted j
  have hpos : 0 < p.workers.countP (Worker.held j) := List.countP_pos_iff.mpr ⟨w, hw, hj⟩
  have hle := h.count_le j
  have hentered := Worker.countP_entered_le j p.workers
  rw [← List.count_pos_iff]
  omega

/-- A job that was fetched is in the hands of a thread that will run it, or has run it. -/
lemma taken_cases (h : p.Places js) {j : ι} (hj : j ∈ p.taken) :
    (∃ w ∈ p.workers, w.held j = true) ∨ (∃ w ∈ p.workers, w.runs j = true) ∨ j ∈ p.returned := by
  obtain ⟨hheld, hran, -, -⟩ := h.counted j
  have hpos := List.count_pos_iff.mpr hj
  by_cases hnone : p.workers.countP (Worker.held j) = 0
  · by_cases hnone' : p.workers.countP (Worker.runs j) = 0
    · exact .inr (.inr (List.count_pos_iff.mp (by omega)))
    · exact .inr (.inl (List.countP_pos_iff.mp (Nat.pos_of_ne_zero hnone')))
  · exact .inl (List.countP_pos_iff.mp (Nat.pos_of_ne_zero hnone))

end Places

/-! ### What a worker thread leaves alone -/

/-- Everything but the semaphore, the queue, the running jobs and the history. -/
structure Frame (p t : JobPool ι) : Prop where
  abortable : t.abortable = p.abortable
  shutdown : t.shutdown = p.shutdown
  adders : t.adders = p.adders
  stage : t.stage = p.stage
  added : t.added = p.added
  taken : p.taken ⊆ t.taken
  returned : p.returned ⊆ t.returned

namespace Work

variable {t : JobPool ι} {w w' : Worker ι}

lemma frame (h : p.Work w t w') : p.Frame t := by
  cases h with
  | fetch => exact ⟨rfl, rfl, rfl, rfl, rfl, List.subset_append_left _ _, List.Subset.refl _⟩
  | run => exact ⟨rfl, rfl, rfl, rfl, rfl, List.Subset.refl _, List.subset_append_left _ _⟩
  | _ => exact ⟨rfl, rfl, rfl, rfl, rfl, List.Subset.refl _, List.Subset.refl _⟩

/-- A thread changes the state of its own job. -/
lemma state_eq (h : p.Work w t w') {j : ι} (hj : w.job? ≠ some j) : t.state j = p.state j := by
  have hne : ∀ job, w.job? = some job → j ≠ job := by
    rintro job hjob rfl
    exact hj hjob
  cases h with
  | start job => exact Function.update_of_ne (hne job rfl) _ _
  | done job => exact Function.update_of_ne (hne job rfl) _ _
  | _ => rfl

lemma state_of_aborted (h : p.Work w t w') {j : ι} (hj : p.state j = .aborted) : t.state j = .aborted := by
  cases h with
  | start job hstate =>
    refine (Function.update_of_ne ?_ _ _).trans hj
    rintro rfl
    exact nomatch hstate.symm.trans hj
  | done job hstate =>
    refine (Function.update_of_ne ?_ _ _).trans hj
    rintro rfl
    exact nomatch hstate.symm.trans hj
  | _ => exact hj

lemma stateOk (h : p.Work w t w') (hqueued : ∀ job, p.queue.first = some job → p.state job = .queued)
    (hw : w.StateOk p.state) : w'.StateOk t.state := by
  cases h with
  | fetch job hfirst => exact hqueued job hfirst
  | start job => exact Function.update_self _ _ _
  | enter job => exact .inl hw
  | run job => exact hw
  | leave job => exact hw
  | _ => trivial

end Work

/-! ### The states -/

/-- `Shutdown` has aborted what it can. -/
def Late (p : JobPool ι) : Prop := ¬ p.Early ∧ p.stage ≠ .abortRunning

structure States (p : JobPool ι) (js : List ι) : Prop where
  new : p.shutdown = false → ∀ j, j ∉ p.added → p.state j = .queued
  pending : ∀ j, .insert j ∈ p.adders → p.state j = .queued
  queued : ∀ j ∈ js, p.state j = .queued
  kept : ¬ p.Early → ∀ j ∈ js, p.abortable j = false
  workers : ∀ w ∈ p.workers, w.StateOk p.state
  removed : ∀ j ∈ p.added, j ∈ p.taken ∨ j ∈ js ∨ p.abortable j = true ∧ p.state j = .aborted
  aborted : p.Late → ∀ j ∈ p.added, p.abortable j = true → j ∈ p.returned ∨ p.state j = .aborted

namespace States

omit [DecidableEq ι] in
lemma accept (h : p.States js) {job : ι} (hnew : p.IsNew job) (hopen : p.shutdown = false) :
    States { p with adders := p.adders ++ [.insert job] } js := by
  refine { h with pending := fun j hj => ?_ }
  obtain hj | hj := List.mem_append.mp hj
  · exact h.pending j hj
  · obtain rfl := Adder.insert.inj (List.mem_singleton.mp hj)
    exact h.new hopen j hnew.1

/-- `Shutdown` aborts jobs that were added, and `Add` one that is not. -/
lemma abortedStates_of_not_mem {jobs : List ι} {j : ι} (hj : j ∉ jobs) : p.abortedStates jobs j = p.state j :=
  if_neg fun hbad => hj hbad.1

lemma reject (h : p.States js) (hplaces : p.Places js) {job : ι} (hnew : p.IsNew job) (hshutdown : p.shutdown = true) :
    States (p.abort job) js := by
  have hsame : ∀ j, j ≠ job → p.abortedStates [job] j = p.state j := fun j hj =>
    abortedStates_of_not_mem fun hmem => hj (List.mem_singleton.mp hmem)
  have hadded : ∀ j ∈ p.added, p.abortedStates [job] j = p.state j := fun j hj =>
    hsame j fun hbad => hnew.1 (hbad ▸ hj)
  rw [abort_eq]
  constructor
  · intro hopen
    exact absurd (hopen.symm.trans hshutdown) Bool.false_ne_true
  · intro j hj
    exact (hsame j fun hbad => hnew.2 (hbad ▸ hj)).trans (h.pending j hj)
  · intro j hj
    exact (hadded j (hplaces.mem_added (.inr hj))).trans (h.queued j hj)
  · exact h.kept
  · intro w hw
    exact (h.workers w hw).congr fun j hj => hadded j (hplaces.mem_added (.inl (hplaces.mem_taken hw hj)))
  · intro j hj
    obtain hj' | hj' | ⟨hjob, hstate⟩ := h.removed j hj
    · exact .inl hj'
    · exact .inr (.inl hj')
    · exact .inr (.inr ⟨hjob, (hadded j hj).trans hstate⟩)
  · intro hlate j hj hjob
    obtain hj' | hstate := h.aborted hlate j hj hjob
    · exact .inl hj'
    · exact .inr ((hadded j hj).trans hstate)

lemma insert (h : p.States js) {before after : List (Adder ι)} {job : ι} (hadders : p.adders = before ++ .insert job :: after)
    (hearly : p.Early) :
    States { p with queue := p.queue.push job, added := p.added ++ [job], adders := before ++ .signal :: after }
      (js ++ [job]) := by
  have hpending := h.pending
  rw [hadders] at hpending
  constructor
  · intro hopen j hj
    exact h.new hopen j fun hmem => hj (List.mem_append_left _ hmem)
  · intro j hj
    refine hpending j ?_
    simp at hj ⊢
    tauto
  · intro j hj
    obtain hj | hj := List.mem_append.mp hj
    · exact h.queued j hj
    · exact List.mem_singleton.mp hj ▸ hpending job (by simp)
  · exact fun hlate => absurd hearly hlate
  · exact h.workers
  · intro j hj
    obtain hj | hj := List.mem_append.mp hj
    · obtain hj | hj | hj := h.removed j hj
      · exact .inl hj
      · exact .inr (.inl (List.mem_append_left _ hj))
      · exact .inr (.inr hj)
    · exact .inr (.inl (List.mem_append_right _ hj))
  · exact fun hlate => absurd hearly hlate.1

omit [DecidableEq ι] in
lemma signal (h : p.States js) {before after : List (Adder ι)} (hadders : p.adders = before ++ .signal :: after) (n : ℕ) :
    States { p with semaphore := n, adders := before ++ after } js := by
  refine { h with pending := fun j hj => h.pending j ?_ }
  rw [hadders]
  simp at hj ⊢
  tauto

lemma work (h : p.States js) (hplaces : p.Places js) {before after : List (Worker ι)} {w w' : Worker ι} {t : JobPool ι}
    (hworkers : p.workers = before ++ w :: after) (hwork : p.Work w t w') {js' : List ι} (hjs : js'.Sublist js)
    (htaken : ∀ j ∈ js, j ∈ t.taken ∨ j ∈ js') : States { t with workers := before ++ w' :: after } js' := by
  have hframe := hwork.frame
  have hw : w ∈ p.workers := by simp [hworkers]
  have hsame : ∀ j, j ∉ p.taken → t.state j = p.state j := fun j hj =>
    hwork.state_eq fun hjob => hj (hplaces.mem_taken hw hjob)
  have hnew : ∀ j, j ∉ p.added → t.state j = p.state j := fun j hj =>
    hsame j fun htaken => hj (hplaces.mem_added (.inl htaken))
  constructor
  · intro hopen j hj
    rw [hframe.added] at hj
    rw [hframe.shutdown] at hopen
    exact (hnew j hj).trans (h.new hopen j hj)
  · intro j hj
    rw [hframe.adders] at hj
    exact (hnew j (hplaces.not_mem_of_insert hj)).trans (h.pending j hj)
  · intro j hj
    exact (hsame j (hplaces.not_mem_of_queued (hjs.subset hj))).trans (h.queued j (hjs.subset hj))
  · intro hlate j hj
    have hlate' : ¬ p.Early := by rwa [Early, hframe.stage] at hlate
    exact (congrFun hframe.abortable j).trans (h.kept hlate' j (hjs.subset hj))
  · intro u hu
    obtain rfl | hu : u = w' ∨ u ∈ before ++ after := by
      simp at hu ⊢
      tauto
    · refine hwork.stateOk (fun job hfirst => h.queued job ?_) (h.workers w hw)
      rw [hplaces.queue.first] at hfirst
      exact List.mem_of_head? hfirst
    · have hu' : u ∈ p.workers := by
        rw [hworkers]
        simp at hu ⊢
        tauto
      refine (h.workers u hu').congr fun j hj => hwork.state_eq fun hjob => ?_
      exact hplaces.job_ne hworkers hjob hu hj
  · intro j hj
    rw [hframe.added] at hj
    obtain hj' | hj' | ⟨hjob, hstate⟩ := h.removed j hj
    · exact .inl (hframe.taken hj')
    · exact (htaken j hj').imp_right .inl
    · exact .inr (.inr ⟨(congrFun hframe.abortable j).trans hjob, hwork.state_of_aborted hstate⟩)
  · intro hlate j hj hjob
    have hlate' : p.Late := by rwa [Late, Early, hframe.stage] at hlate
    rw [hframe.added] at hj
    rw [hframe.abortable] at hjob
    obtain hj' | hstate := h.aborted hlate' j hj hjob
    · exact .inl (hframe.returned hj')
    · exact .inr (hwork.state_of_aborted hstate)

end States

/-! ### `Shutdown` -/

/-- Where the jobs are, and their states. -/
def Kept (p : JobPool ι) (js : List ι) : Prop := p.Places js ∧ p.States js

namespace Kept

lemma shutdown_idle (h : p.Kept js) (hstage : p.stage = .idle) :
    Kept { p with shutdown := true, stage := .abortQueued } js := by
  obtain ⟨hplaces, hstates⟩ := h
  constructor
  · exact hplaces.of_eq rfl rfl rfl rfl rfl rfl rfl rfl fun _ => .inl hstage
  · refine { hstates with new := ?_, kept := ?_, aborted := ?_ }
    · exact fun hbad => absurd hbad.symm Bool.false_ne_true
    · exact fun hbad => absurd (.inr rfl) hbad
    · exact fun hbad => absurd (.inr rfl) hbad.1

lemma shutdown_queued (h : p.Kept js) {q : LinkedQueue ι} (hq : q.IsQueue (js.filter fun j => !p.abortable j)) :
    Kept { p with queue := q, state := p.abortedStates js, stage := .abortRunning } (js.filter fun j => !p.abortable j) := by
  obtain ⟨hplaces, hstates⟩ := h
  have hfilter : (js.filter fun j => !p.abortable j).Sublist js := List.filter_sublist
  have hsame : ∀ j, j ∉ js → p.abortedStates js j = p.state j := fun j hj => States.abortedStates_of_not_mem hj
  constructor
  · refine { hplaces with queue := hq, order := ?_, early := ?_, counted := fun j => { hplaces.counted j with } }
    · exact (hfilter.append_left p.taken).trans hplaces.order
    · rintro (hbad | hbad) <;> exact nomatch hbad
  · constructor
    · intro hopen j hj
      exact (hsame j fun hmem => hj (hplaces.mem_added (.inr hmem))).trans (hstates.new hopen j hj)
    · intro j hj
      refine (hsame j fun hmem => ?_).trans (hstates.pending j hj)
      exact hplaces.not_mem_of_insert hj (hplaces.mem_added (.inr hmem))
    · intro j hj
      obtain ⟨hj, hjob⟩ := List.mem_filter.mp hj
      refine (if_neg fun hbad => ?_).trans (hstates.queued j hj)
      rw [hbad.2] at hjob
      exact Bool.false_ne_true hjob
    · intro _ j hj
      simpa using (List.mem_filter.mp hj).2
    · intro w hw
      refine (hstates.workers w hw).congr fun j hj => hsame j fun hmem => ?_
      exact hplaces.not_mem_of_queued hmem (hplaces.mem_taken hw hj)
    · intro j hj
      by_cases hmem : j ∈ js
      · by_cases hjob : p.abortable j = true
        · exact .inr (.inr ⟨hjob, if_pos ⟨hmem, hjob⟩⟩)
        · exact .inr (.inl (List.mem_filter.mpr ⟨hmem, by simpa using hjob⟩))
      · obtain hj' | hj' | ⟨hjob, hstate⟩ := hstates.removed j hj
        · exact .inl hj'
        · exact absurd hj' hmem
        · exact .inr (.inr ⟨hjob, (hsame j hmem).trans hstate⟩)
    · exact fun hbad => absurd rfl hbad.2

lemma shutdown_running (h : p.Kept js) (hstage : p.stage = .abortRunning) (hmeets : p.Meets .shutdown) (n : ℕ) :
    Kept { p with state := p.abortedStates p.running, stage := .wake n } js := by
  obtain ⟨hplaces, hstates⟩ := h
  have hsame : ∀ j, j ∉ p.taken → p.abortedStates p.running j = p.state j := fun j hj =>
    States.abortedStates_of_not_mem fun hmem => hj (hplaces.running_taken hmem)
  have hold : ¬ p.Early := by
    rintro (hbad | hbad) <;> exact nomatch hstage.symm.trans hbad
  have haborted : ∀ j, p.state j = .aborted → p.abortedStates p.running j = .aborted := by
    intro j hj
    rw [abortedStates]
    split_ifs
    · rfl
    · exact hj
  constructor
  · exact hplaces.of_eq rfl rfl rfl rfl rfl rfl rfl rfl (by rintro (hbad | hbad) <;> exact nomatch hbad)
  · constructor
    · intro hopen j hj
      exact (hsame j fun hmem => hj (hplaces.mem_added (.inl hmem))).trans (hstates.new hopen j hj)
    · intro j hj
      refine (hsame j fun hmem => ?_).trans (hstates.pending j hj)
      exact hplaces.not_mem_of_insert hj (hplaces.mem_added (.inl hmem))
    · intro j hj
      exact (hsame j (hplaces.not_mem_of_queued hj)).trans (hstates.queued j hj)
    · exact fun _ => hstates.kept hold
    · intro w hw
      have hok := hstates.workers w hw
      have hheld : ∀ j, w.held j = true → p.abortedStates p.running j = p.state j := fun j hj =>
        States.abortedStates_of_not_mem (hplaces.not_running_of_held hw hj)
      have hrun : ∀ j, p.state j = .running ∨ p.state j = .aborted →
          p.abortedStates p.running j = .running ∨ p.abortedStates p.running j = .aborted := by
        intro j hj
        rw [abortedStates]
        split_ifs
        · exact .inr rfl
        · exact hj
      cases w with
      | start job => exact (hheld job (by simp [Worker.held])).trans hok
      | enter job => exact (hheld job (by simp [Worker.held])).trans hok
      | run job => exact hrun job hok
      | leave job => exact hrun job hok
      | finish job => exact hrun job hok
      | _ => trivial
    · intro j hj
      obtain hj' | hj' | ⟨hjob, hstate⟩ := hstates.removed j hj
      · exact .inl hj'
      · exact .inr (.inl hj')
      · exact .inr (.inr ⟨hjob, haborted j hstate⟩)
    · intro _ j hj hjob
      obtain hj' | hj' | ⟨-, hstate⟩ := hstates.removed j hj
      · obtain ⟨w, hw, hheld⟩ | ⟨w, hw, hruns⟩ | hreturned := hplaces.taken_cases hj'
        · have hnone := hmeets hstage j hjob
          cases w <;> simp_all [Worker.held]
        · refine .inr (if_pos ⟨hplaces.mem_running_iff.mpr ⟨w, hw, ?_⟩, hjob⟩)
          cases w <;> simp_all [Worker.runs, Worker.entered]
        · exact .inl hreturned
      · exact absurd ((hstates.kept hold j hj').symm.trans hjob) Bool.false_ne_true
      · exact .inr (haborted j hstate)

lemma shutdown_wake (h : p.Kept js) {n : ℕ} (hstage : p.stage = .wake n) {stage : ShutdownStage}
    (hnext : stage = .joined ∨ ∃ n, stage = .wake n) (semaphore : ℕ) :
    Kept { p with semaphore := semaphore, stage := stage } js := by
  obtain ⟨hplaces, hstates⟩ := h
  have hold : ¬ p.Early := by
    rintro (hbad | hbad) <;> exact nomatch hstage.symm.trans hbad
  have hnew : ¬ (stage = .idle ∨ stage = .abortQueued) := by
    rintro (hbad | hbad) <;> obtain rfl | ⟨m, rfl⟩ := hnext <;> exact nomatch hbad
  constructor
  · exact hplaces.of_eq rfl rfl rfl rfl rfl rfl rfl rfl fun hbad => absurd hbad hnew
  · refine { hstates with kept := fun _ => hstates.kept hold, aborted := fun _ => hstates.aborted ⟨hold, ?_⟩ }
    intro hbad
    exact nomatch hstage.symm.trans hbad

end Kept

end JobPool

end DDNet
