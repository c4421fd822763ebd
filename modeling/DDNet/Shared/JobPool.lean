/-
The job pool (`engine/shared/jobs.cpp`).

Worker threads, threads that add jobs and the thread that shuts the pool down take turns.  A step of a thread is a locked
section, an operation on the semaphore or a change of the state of a job.  The state of the pool says of every thread what
it does next, and its last fields are the history of the run.
-/
import DDNet.Lib.LinkedQueue
import DDNet.Lib.Transition

namespace DDNet

open Lib

/-! ### Threads -/

inductive JobState where
  | queued
  | running
  | done
  | aborted
deriving DecidableEq

/-- What a worker thread does next in `RunLoop`. -/
inductive Worker (ι : Type*) where
  | wait
  | fetch
  | start (job : ι)
  /-- Into `m_RunningJobs`. -/
  | enter (job : ι)
  | run (job : ι)
  | leave (job : ι)
  | finish (job : ι)
  /-- There was no job. -/
  | check
  | exited
deriving DecidableEq

/-- What a thread in `Add` does next. -/
inductive Adder (ι : Type*) where
  | insert (job : ι)
  | signal
deriving DecidableEq

/-- What the thread in `Shutdown` does next. -/
inductive ShutdownStage where
  /-- It has not been called. -/
  | idle
  | abortQueued
  | abortRunning
  /-- Signals for the worker threads. -/
  | wake (n : ℕ)
  | joined
deriving DecidableEq

structure JobPool (ι : Type*) where
  abortable : ι → Bool
  state : ι → JobState
  queue : LinkedQueue ι
  semaphore : ℕ
  running : List ι
  shutdown : Bool
  workers : List (Worker ι)
  adders : List (Adder ι)
  stage : ShutdownStage
  /-- In the order of insertion. -/
  added : List ι
  /-- In the order in which they were fetched. -/
  taken : List ι
  /-- The calls of `Run`, and those that have returned. -/
  ran : List ι
  returned : List ι

inductive JobEvent (ι : Type*) where
  /-- A thread calls `Add`. -/
  | add (job : ι)
  | adder (i : ℕ)
  | worker (i : ℕ)
  | shutdown
deriving DecidableEq

namespace JobPool

variable {ι : Type*}

/-- `Init`. -/
def init (abortable : ι → Bool) (numThreads : ℕ) : JobPool ι where
  abortable := abortable
  state _ := .queued
  queue := .empty
  semaphore := 0
  running := []
  shutdown := false
  workers := List.replicate numThreads .wait
  adders := []
  stage := .idle
  added := []
  taken := []
  ran := []
  returned := []

variable [DecidableEq ι]

/-- `IJob::Abort`. -/
def abort (p : JobPool ι) (job : ι) : JobPool ι :=
  if p.abortable job then { p with state := Function.update p.state job .aborted } else p

/-! ### `Shutdown` -/

/-- The loop over the queue; it stops when there are no jobs left. -/
def abortQueuedLoop (p : JobPool ι) : ℕ → Option ι → Option ι → Option (JobPool ι)
  | 0, _, _ => none
  | _ + 1, none, prev => some { p with queue := { p.queue with last := prev } }
  | n + 1, some job, prev =>
      if p.abortable job then
        abortQueuedLoop { p.abort job with queue := p.queue.unlinkAfter prev job } n (p.queue.next job) prev
      else abortQueuedLoop p n (p.queue.next job) (some job)

def abortQueued (p : JobPool ι) : Option (JobPool ι) :=
  p.abortQueuedLoop (p.added.length + 1) p.queue.first none

def abortRunning (p : JobPool ι) : JobPool ι := p.running.foldl abort p

def shutdownStep (p : JobPool ι) : Option (JobPool ι) :=
  match p.stage with
  | .idle => some { p with shutdown := true, stage := .abortQueued }
  | .abortQueued => p.abortQueued.map fun t => { t with stage := .abortRunning }
  | .abortRunning => some { p.abortRunning with stage := .wake p.workers.length }
  | .wake (n + 1) => some { p with semaphore := p.semaphore + 1, stage := .wake n }
  | .wake 0 => if ∀ w ∈ p.workers, w = .exited then some { p with stage := .joined } else none
  | .joined => none

/-! ### `RunLoop` -/

def workerStep (p : JobPool ι) : Worker ι → Option (JobPool ι × Worker ι)
  | .wait => if p.semaphore = 0 then none else some ({ p with semaphore := p.semaphore - 1 }, .fetch)
  | .fetch =>
      match p.queue.first with
      | none => some (p, .check)
      | some job => some ({ p with queue := p.queue.pop job, taken := p.taken ++ [job] }, .start job)
  | .start job =>
      match p.state job with
      | .queued => some ({ p with state := Function.update p.state job .running }, .enter job)
      | .aborted => some (p, .wait)
      -- job state invalid
      | _ => none
  | .enter job => some ({ p with running := p.running ++ [job], ran := p.ran ++ [job] }, .run job)
  | .run job => some ({ p with returned := p.returned ++ [job] }, .leave job)
  | .leave job => if job ∈ p.running then some ({ p with running := p.running.erase job }, .finish job) else none
  | .finish job =>
      match p.state job with
      | .running => some ({ p with state := Function.update p.state job .done }, .wait)
      | .aborted => some (p, .wait)
      -- job state invalid
      | _ => none
  | .check => some (p, if p.shutdown then .exited else .wait)
  | .exited => none

/-- What a worker thread does. -/
inductive Work (p : JobPool ι) : Worker ι → JobPool ι → Worker ι → Prop
  | wait (h : 0 < p.semaphore) : Work p .wait { p with semaphore := p.semaphore - 1 } .fetch
  | nothing (h : p.queue.first = none) : Work p .fetch p .check
  | fetch (job : ι) (h : p.queue.first = some job) :
      Work p .fetch { p with queue := p.queue.pop job, taken := p.taken ++ [job] } (.start job)
  | start (job : ι) (h : p.state job = .queued) :
      Work p (.start job) { p with state := Function.update p.state job .running } (.enter job)
  | skip (job : ι) (h : p.state job = .aborted) : Work p (.start job) p .wait
  | enter (job : ι) : Work p (.enter job) { p with running := p.running ++ [job], ran := p.ran ++ [job] } (.run job)
  | run (job : ι) : Work p (.run job) { p with returned := p.returned ++ [job] } (.leave job)
  | leave (job : ι) (h : job ∈ p.running) :
      Work p (.leave job) { p with running := p.running.erase job } (.finish job)
  | done (job : ι) (h : p.state job = .running) :
      Work p (.finish job) { p with state := Function.update p.state job .done } .wait
  | stopped (job : ι) (h : p.state job = .aborted) : Work p (.finish job) p .wait
  | exit (h : p.shutdown = true) : Work p .check p .exited
  | again (h : p.shutdown = false) : Work p .check p .wait

lemma work_iff {p t : JobPool ι} {w w' : Worker ι} : p.workerStep w = some (t, w') ↔ Work p w t w' := by
  constructor
  · intro h
    cases w with
    | wait =>
      by_cases hsemaphore : p.semaphore = 0
      · simp [workerStep, hsemaphore] at h
      · simp [workerStep, hsemaphore] at h
        obtain ⟨rfl, rfl⟩ := h
        exact .wait (Nat.pos_of_ne_zero hsemaphore)
    | fetch =>
      cases hfirst : p.queue.first with
      | none =>
        simp [workerStep, hfirst] at h
        obtain ⟨rfl, rfl⟩ := h
        exact .nothing hfirst
      | some job =>
        simp [workerStep, hfirst] at h
        obtain ⟨rfl, rfl⟩ := h
        exact .fetch job hfirst
    | start job =>
      cases hstate : p.state job <;> simp [workerStep, hstate] at h
      · obtain ⟨rfl, rfl⟩ := h
        exact .start job hstate
      · obtain ⟨rfl, rfl⟩ := h
        exact .skip job hstate
    | enter job =>
      simp [workerStep] at h
      obtain ⟨rfl, rfl⟩ := h
      exact .enter job
    | run job =>
      simp [workerStep] at h
      obtain ⟨rfl, rfl⟩ := h
      exact .run job
    | leave job =>
      simp [workerStep] at h
      obtain ⟨hmem, rfl, rfl⟩ := h
      exact .leave job hmem
    | finish job =>
      cases hstate : p.state job <;> simp [workerStep, hstate] at h
      · obtain ⟨rfl, rfl⟩ := h
        exact .done job hstate
      · obtain ⟨rfl, rfl⟩ := h
        exact .stopped job hstate
    | check =>
      cases hshutdown : p.shutdown <;> simp [workerStep, hshutdown] at h
      · obtain ⟨rfl, rfl⟩ := h
        exact .again hshutdown
      · obtain ⟨rfl, rfl⟩ := h
        exact .exit hshutdown
    | exited => exact nomatch h
  · intro h
    cases h with
    | wait h => rw [workerStep, if_neg (Nat.ne_of_gt h)]
    | enter job => rfl
    | run job => rfl
    | nothing h => simp [workerStep, h]
    | fetch job h => simp [workerStep, h]
    | start job h => simp [workerStep, h]
    | skip job h => simp [workerStep, h]
    | leave job h => simp [workerStep, h]
    | done job h => simp [workerStep, h]
    | stopped job h => simp [workerStep, h]
    | exit h => simp [workerStep, h]
    | again h => simp [workerStep, h]

/-! ### Steps -/

/-- A job is added once. -/
def IsNew (p : JobPool ι) (job : ι) : Prop := job ∉ p.added ∧ Adder.insert job ∉ p.adders

instance (p : JobPool ι) (job : ι) : Decidable (p.IsNew job) := inferInstanceAs (Decidable (_ ∧ _))

/-- The next step of a thread; `none` if the thread cannot take one.  The semaphore is destroyed with the threads. -/
def step (p : JobPool ι) : JobEvent ι → Option (JobPool ι)
  | .add job =>
      if p.IsNew job then
        if p.shutdown then some (p.abort job) else some { p with adders := p.adders ++ [.insert job] }
      else none
  | .adder i =>
      match p.adders[i]? with
      | none => none
      | some (.insert job) =>
          some { p with queue := p.queue.push job, added := p.added ++ [job], adders := p.adders.set i .signal }
      | some .signal =>
          if p.stage = .joined then none
          else some { p with semaphore := p.semaphore + 1, adders := p.adders.eraseIdx i }
  | .worker i =>
      match p.workers[i]? with
      | none => none
      | some w => (p.workerStep w).map fun r => { r.1 with workers := p.workers.set i r.2 }
  | .shutdown => p.shutdownStep

/-! ### The race between a thread and `Shutdown` -/

/-- `Shutdown` has not walked the queue. -/
def Early (p : JobPool ι) : Prop := p.stage = .idle ∨ p.stage = .abortQueued

/-- `Add` enters no job behind `Shutdown`, and `Shutdown` does not walk the running jobs while a thread has fetched an
abortable job but not entered it. -/
def Meets (p : JobPool ι) : JobEvent ι → Prop
  | .adder i => ∀ job, p.adders[i]? = some (.insert job) → p.Early
  | .shutdown => p.stage = .abortRunning →
      ∀ job, p.abortable job = true → .start job ∉ p.workers ∧ .enter job ∉ p.workers
  | _ => True

/-- What a step does that meets the condition; the thread that takes it stands between the others. -/
inductive Move (p : JobPool ι) : JobPool ι → Prop
  | accept (job : ι) (hnew : p.IsNew job) (hopen : p.shutdown = false) :
      Move p { p with adders := p.adders ++ [.insert job] }
  | reject (job : ι) (hnew : p.IsNew job) (hshutdown : p.shutdown = true) : Move p (p.abort job)
  | insert (before after : List (Adder ι)) (job : ι) (h : p.adders = before ++ .insert job :: after) (hearly : p.Early) :
      Move p { p with queue := p.queue.push job, added := p.added ++ [job], adders := before ++ .signal :: after }
  | signal (before after : List (Adder ι)) (h : p.adders = before ++ .signal :: after) (hstage : p.stage ≠ .joined) :
      Move p { p with semaphore := p.semaphore + 1, adders := before ++ after }
  | work (before after : List (Worker ι)) (w w' : Worker ι) (t : JobPool ι) (h : p.workers = before ++ w :: after)
      (hwork : p.Work w t w') : Move p { t with workers := before ++ w' :: after }
  | shutdown (t : JobPool ι) (h : p.shutdownStep = some t) (hmeets : p.Meets .shutdown) : Move p t

lemma split_of_getElem? {α : Type*} {l : List α} {i : ℕ} {a : α} (h : l[i]? = some a) :
    ∃ before after, l = before ++ a :: after ∧ (∀ b, l.set i b = before ++ b :: after) ∧
      l.eraseIdx i = before ++ after := by
  obtain ⟨hi, rfl⟩ := List.getElem?_eq_some_iff.mp h
  refine ⟨l.take i, l.drop (i + 1), ?_, fun b => ?_, ?_⟩
  · rw [← List.drop_eq_getElem_cons hi, List.take_append_drop]
  · rw [List.set_eq_take_append_cons_drop, if_pos hi]
  · rw [List.eraseIdx_eq_take_drop_succ]

lemma adder_cases {p t : JobPool ι} {i : ℕ} (h : p.step (.adder i) = some t) :
    (∃ before job after, p.adders[i]? = some (.insert job) ∧ p.adders = before ++ .insert job :: after ∧
      t = { p with queue := p.queue.push job, added := p.added ++ [job], adders := before ++ .signal :: after }) ∨
    (∃ before after, p.stage ≠ .joined ∧ p.adders = before ++ .signal :: after ∧
      t = { p with semaphore := p.semaphore + 1, adders := before ++ after }) := by
  rw [step] at h
  cases hadder : p.adders[i]? with
  | none =>
    rw [hadder] at h
    exact nomatch h
  | some a =>
    obtain ⟨before, after, hsplit, hset, herase⟩ := split_of_getElem? hadder
    rw [hadder, herase, hset] at h
    cases a with
    | insert job => exact .inl ⟨before, job, after, rfl, hsplit, (Option.some.inj h).symm⟩
    | signal =>
      by_cases hstage : p.stage = .joined
      · simp only [if_pos hstage] at h
        exact nomatch h
      · simp only [if_neg hstage] at h
        exact .inr ⟨before, after, hstage, hsplit, (Option.some.inj h).symm⟩

lemma worker_cases {p t : JobPool ι} {i : ℕ} (h : p.step (.worker i) = some t) :
    ∃ before after w w' r, p.workers = before ++ w :: after ∧ p.Work w r w' ∧
      t = { r with workers := before ++ w' :: after } := by
  rw [step] at h
  cases hworker : p.workers[i]? with
  | none =>
    rw [hworker] at h
    exact nomatch h
  | some w =>
    obtain ⟨before, after, hsplit, hset, -⟩ := split_of_getElem? hworker
    rw [hworker] at h
    obtain ⟨⟨r, w'⟩, hwork, rfl⟩ := Option.map_eq_some_iff.mp h
    refine ⟨before, after, w, w', r, hsplit, work_iff.mp hwork, ?_⟩
    rw [hset]

lemma move_of_step {p t : JobPool ι} {event : JobEvent ι} (hmeets : p.Meets event) (h : p.step event = some t) :
    p.Move t := by
  cases event with
  | add job =>
    rw [step] at h
    by_cases hnew : p.IsNew job
    · rw [if_pos hnew] at h
      by_cases hshutdown : p.shutdown = true
      · rw [if_pos hshutdown] at h
        exact Option.some.inj h ▸ .reject job hnew hshutdown
      · rw [if_neg hshutdown] at h
        exact Option.some.inj h ▸ .accept job hnew (Bool.eq_false_iff.mpr hshutdown)
    · rw [if_neg hnew] at h
      exact nomatch h
  | adder i =>
    obtain ⟨before, job, after, hadder, hsplit, rfl⟩ | ⟨before, after, hstage, hsplit, rfl⟩ := adder_cases h
    · exact .insert before after job hsplit (hmeets job hadder)
    · exact .signal before after hsplit hstage
  | worker i =>
    obtain ⟨before, after, w, w', r, hsplit, hwork, rfl⟩ := worker_cases h
    exact .work before after w w' r hsplit hwork
  | shutdown => exact .shutdown t h hmeets

end JobPool

end DDNet
