/-
Where the jobs of the pool are.

A job that was added is in the queue, in the hands of one worker thread, done with, or was taken out of the queue by
`Shutdown`.  What is said of the history is counted for every job.
-/
import DDNet.Shared.JobPool

namespace DDNet

open Lib

namespace Worker

variable {ι : Type*} [DecidableEq ι]

/-- The thread has fetched the job but not entered it. -/
def held (j : ι) : Worker ι → Bool
  | .start job | .enter job => job = j
  | _ => false

def runs (j : ι) : Worker ι → Bool
  | .run job => job = j
  | _ => false

/-- The job is in `m_RunningJobs`. -/
def entered (j : ι) : Worker ι → Bool
  | .run job | .leave job => job = j
  | _ => false

/-- `Run` has returned. -/
def left (j : ι) : Worker ι → Bool
  | .leave job | .finish job => job = j
  | _ => false

end Worker

namespace JobPool

variable {ι : Type*} [DecidableEq ι]

/-- How often a job was fetched, run and done with, as the worker threads have it. -/
structure Counted (p : JobPool ι) (j : ι) : Prop where
  held : p.taken.count j = p.ran.count j + p.workers.countP (Worker.held j)
  ran : p.ran.count j = p.returned.count j + p.workers.countP (Worker.runs j)
  left : p.workers.countP (Worker.left j) ≤ p.returned.count j
  running : p.running.count j = p.workers.countP (Worker.entered j)

/-- Where the jobs are; those in the queue are `js`. -/
structure Places (p : JobPool ι) (js : List ι) : Prop where
  queue : p.queue.IsQueue js
  distinct : ∀ j, p.added.count j + p.adders.count (.insert j) ≤ 1
  order : (p.taken ++ js).Sublist p.added
  early : p.Early → p.taken ++ js = p.added
  counted : ∀ j, p.Counted j

/-- A worker thread moves a job from one place to the next. -/
lemma Counted.work {p t : JobPool ι} {j : ι} (h : p.Counted j) {before after : List (Worker ι)} {w w' : Worker ι}
    (hworkers : p.workers = before ++ w :: after) (hwork : p.Work w t w')
    (hstart : ∀ job, w = .start job → p.state job = .queued) : Counted { t with workers := before ++ w' :: after } j := by
  obtain ⟨hheld, hran, hleft, hrunning⟩ := h
  rw [hworkers] at hheld hran hleft hrunning
  cases hwork with
  | skip job hstate =>
    rw [hstart job rfl] at hstate
    exact nomatch hstate
  | _ =>
    simp [List.countP_cons, Worker.held, Worker.runs, Worker.left, Worker.entered] at hheld hran hleft hrunning
    constructor <;>
      simp [List.countP_cons, List.count_cons, List.count_erase, Worker.held, Worker.runs, Worker.left, Worker.entered] <;>
      omega

namespace Places

variable {p : JobPool ι} {js : List ι}

lemma count_le (h : p.Places js) (j : ι) : p.taken.count j + js.count j ≤ 1 := by
  have hdistinct := h.distinct j
  have horder := h.order.count_le j
  rw [List.count_append] at horder
  omega

lemma not_mem_of_queued (h : p.Places js) {j : ι} (hj : j ∈ js) : j ∉ p.taken := by
  have hle := h.count_le j
  have hpos := List.count_pos_iff.mpr hj
  rw [← List.count_pos_iff]
  omega

lemma mem_added (h : p.Places js) {j : ι} (hj : j ∈ p.taken ∨ j ∈ js) : j ∈ p.added :=
  h.order.subset (List.mem_append.mpr hj)

/-- A job that is to be inserted is nowhere. -/
lemma not_mem_of_insert (h : p.Places js) {j : ι} (hj : .insert j ∈ p.adders) : j ∉ p.added := by
  have hdistinct := h.distinct j
  have hpos := List.count_pos_iff.mpr hj
  rw [← List.count_pos_iff]
  omega

lemma accept (h : p.Places js) {job : ι} (hnew : p.IsNew job) :
    Places { p with adders := p.adders ++ [.insert job] } js := by
  refine { h with distinct := fun j => ?_, counted := fun j => { h.counted j with } }
  have hdistinct := h.distinct j
  rw [List.count_append, List.count_singleton]
  by_cases hj : job = j
  · subst hj
    rw [List.count_eq_zero.mpr hnew.1, List.count_eq_zero.mpr hnew.2]
    simp
  · simp [hj]
    exact hdistinct

lemma insert (h : p.Places js) {before after : List (Adder ι)} {job : ι} (hadders : p.adders = before ++ .insert job :: after)
    (hearly : p.Early) :
    Places { p with queue := p.queue.push job, added := p.added ++ [job], adders := before ++ .signal :: after }
      (js ++ [job]) := by
  have hjob : job ∉ p.added := h.not_mem_of_insert (by simp [hadders])
  refine
    { h with
      queue := ?_
      distinct := fun j => ?_
      order := ?_
      early := fun _ => ?_
      counted := fun j => { h.counted j with } }
  · exact h.queue.push fun hmem => hjob (h.mem_added (.inr hmem))
  · have hdistinct := h.distinct j
    rw [hadders] at hdistinct
    simp [List.count_append, List.count_cons] at hdistinct ⊢
    omega
  · rw [← List.append_assoc]
    exact h.order.append (List.Sublist.refl _)
  · rw [← List.append_assoc, h.early hearly]

lemma signal (h : p.Places js) {before after : List (Adder ι)} (hadders : p.adders = before ++ .signal :: after) (n : ℕ) :
    Places { p with semaphore := n, adders := before ++ after } js := by
  refine { h with distinct := fun j => ?_, counted := fun j => { h.counted j with } }
  have hdistinct := h.distinct j
  rw [hadders] at hdistinct
  simpa [List.count_append, List.count_cons] using hdistinct

/-- The states of jobs, the semaphore and what `Shutdown` does next do not matter. -/
lemma of_eq (h : p.Places js) {t : JobPool ι} (hqueue : t.queue = p.queue) (hadded : t.added = p.added)
    (hadders : t.adders = p.adders) (htaken : t.taken = p.taken) (hran : t.ran = p.ran)
    (hreturned : t.returned = p.returned) (hworkers : t.workers = p.workers) (hrunning : t.running = p.running)
    (hearly : t.Early → p.Early) : t.Places js where
  queue := hqueue ▸ h.queue
  distinct := by rw [hadded, hadders]; exact h.distinct
  order := by rw [htaken, hadded]; exact h.order
  early := by
    intro ht
    rw [htaken, hadded]
    exact h.early (hearly ht)
  counted j := by
    obtain ⟨hheld, hran', hleft, hrunning'⟩ := h.counted j
    constructor
    · rwa [htaken, hran, hworkers]
    · rwa [hran, hreturned, hworkers]
    · rwa [hreturned, hworkers]
    · rwa [hrunning, hworkers]

/-- A worker thread moves a job from one place to the next. -/
lemma work (h : p.Places js) {before after : List (Worker ι)} {w w' : Worker ι} {t : JobPool ι}
    (hworkers : p.workers = before ++ w :: after) (hwork : p.Work w t w')
    (hstart : ∀ job, w = .start job → p.state job = .queued) :
    ∃ js', Places { t with workers := before ++ w' :: after } js' ∧ js'.Sublist js ∧ ∀ j ∈ js, j ∈ t.taken ∨ j ∈ js' := by
  have hcounted := fun j => (h.counted j).work hworkers hwork hstart
  cases hwork with
  | fetch job hfirst =>
    cases js with
    | nil =>
      rw [h.queue.first] at hfirst
      exact nomatch hfirst
    | cons j js =>
      obtain rfl : j = job := by
        rw [h.queue.first] at hfirst
        exact Option.some.inj hfirst
      have hmove : p.taken ++ [j] ++ js = p.taken ++ j :: js := List.append_cons _ _ _ |>.symm
      refine ⟨js, { h with queue := h.queue.pop, order := ?_, early := ?_, counted := hcounted },
        List.sublist_cons_self j js, fun k hk => ?_⟩
      · exact hmove ▸ h.order
      · intro hearly
        rw [hmove]
        exact h.early hearly
      · obtain rfl | hk := List.mem_cons.mp hk
        · exact .inl (by simp)
        · exact .inr hk
  | _ => exact ⟨js, { h with counted := hcounted }, List.Sublist.refl js, fun _ hj => .inr hj⟩

end Places

end JobPool

end DDNet
