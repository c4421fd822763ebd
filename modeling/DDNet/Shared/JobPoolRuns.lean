/-
Runs of the job pool.

The signals of the semaphore are counted against the jobs, so a worker thread finds a job in the queue until `Shutdown` has
walked it.  Every job is run once, unless `Shutdown` aborts it, if no thread is caught between two of its steps.
-/
import Mathlib
import DDNet.Shared.JobPoolStates

namespace DDNet

open Lib

namespace Worker

variable {ι : Type*}

def fetches : Worker ι → Bool
  | .fetch => true
  | _ => false

/-- The thread has found the queue empty. -/
def emptyHanded : Worker ι → Bool
  | .check | .exited => true
  | _ => false

/-- How far the thread is from waiting or from its end. -/
def weight : Worker ι → ℕ
  | .wait => 0
  | .fetch => 9
  | .start _ => 8
  | .enter _ => 7
  | .run _ => 6
  | .leave _ => 5
  | .finish _ => 4
  | .check => 1
  | .exited => 0

end Worker

def Adder.weight {ι : Type*} : Adder ι → ℕ
  | .insert _ => 12
  | .signal => 11

namespace ShutdownStage

/-- The signals that are still to be given to `n` threads. -/
def toGive (n : ℕ) : ShutdownStage → ℕ
  | .idle | .abortQueued | .abortRunning => n
  | .wake m => m
  | .joined => 0

def weight (n : ℕ) : ShutdownStage → ℕ
  | .idle => 0
  | .abortQueued => 11 * n + 3
  | .abortRunning => 11 * n + 2
  | .wake m => 11 * m + 1
  | .joined => 0

end ShutdownStage

namespace JobPool

variable {ι : Type*} [DecidableEq ι]

/-! ### What is shown -/

/-- A step that meets the condition. -/
def MeetsStep (p t : JobPool ι) : Prop := ∃ event, p.Meets event ∧ p.step event = some t

/-- A step other than a call of `Add` or `Shutdown`. -/
def OwnStep (p t : JobPool ι) : Prop :=
  ∃ event, (∀ job, event ≠ .add job) ∧ ¬ (event = .shutdown ∧ p.stage = .idle) ∧ p.Meets event ∧ p.step event = some t

/-- The jobs are run as they should be; those in the queue are `js`. -/
structure Good (p : JobPool ι) (js : List ι) : Prop where
  queue : p.queue.IsQueue js
  once : p.ran.Nodup ∧ p.ran ⊆ p.added
  order : p.added.Nodup ∧ (p.taken ++ js).Sublist p.added
  kept : ∀ j ∈ p.added, j ∈ js ∨ (∃ w ∈ p.workers, w.held j = true ∨ w.runs j = true) ∨ j ∈ p.returned ∨
    ¬ p.Early ∧ p.abortable j = true ∧ p.state j = .aborted
  exited : .exited ∈ p.workers → p.shutdown = true ∧ js = []
  aborted : p.Late → ∀ j ∈ p.added, p.abortable j = true → j ∈ p.returned ∨ p.state j = .aborted

/-- Nothing is left to do. -/
structure Final (p : JobPool ι) : Prop where
  jobs : ∀ j ∈ p.added, p.ran.count j = 1 ∧ j ∈ p.returned ∨ ¬ p.Early ∧ p.abortable j = true ∧ p.state j = .aborted
  joined : p.shutdown = true → p.stage = .joined

/-! ### Signals -/

/-- Every signal is for a job, or from `Shutdown` for a thread. -/
structure Counts (p : JobPool ι) (js : List ι) (n : ℕ) : Prop where
  shutdown : p.shutdown = true ↔ p.stage ≠ .idle
  threads : p.workers.length = n
  semaphore : p.added.length + n = p.semaphore + p.workers.countP Worker.fetches + p.taken.length +
    p.workers.countP Worker.emptyHanded + p.adders.count .signal + p.stage.toGive n
  early : p.Early → p.workers.countP Worker.emptyHanded = 0
  empty : 0 < p.workers.countP Worker.emptyHanded → js = []
  joined : p.stage = .joined → ∀ w ∈ p.workers, w = .exited

structure Inv (p : JobPool ι) (n : ℕ) (js : List ι) : Prop where
  places : p.Places js
  states : p.States js
  counts : p.Counts js n

variable {p t : JobPool ι} {n : ℕ} {js : List ι}

lemma inv_init (abortable : ι → Bool) (n : ℕ) : Inv (init abortable n) n [] := by
  refine ⟨?_, ?_, ?_⟩
  · refine ⟨LinkedQueue.isQueue_empty, fun _ => Nat.zero_le 1, List.Sublist.refl _, fun _ => rfl, fun j => ?_⟩
    constructor <;> simp [init, List.countP_replicate, Worker.held, Worker.runs, Worker.left, Worker.entered]
  · refine ⟨fun _ _ _ => rfl, ?_, ?_, ?_, ?_, ?_, ?_⟩
    · exact fun _ hbad => absurd hbad List.not_mem_nil
    · exact fun _ hbad => absurd hbad List.not_mem_nil
    · exact fun _ _ hbad => absurd hbad List.not_mem_nil
    · intro w hw
      rw [List.eq_of_mem_replicate hw]
      trivial
    · exact fun _ hbad => absurd hbad List.not_mem_nil
    · exact fun _ _ hbad => absurd hbad List.not_mem_nil
  · refine ⟨?_, List.length_replicate, ?_, fun _ => ?_, fun _ => rfl, fun hbad => ShutdownStage.noConfusion hbad⟩
    · simp [init]
    · simp [init, Worker.fetches, Worker.emptyHanded, ShutdownStage.toGive]
    · simp [init, Worker.emptyHanded]

/-- Until `Shutdown` has walked the queue, a thread that was signalled finds a job. -/
lemma Counts.first_isSome (h : p.Counts js n) (hplaces : p.Places js) (hearly : p.Early) (hfetch : .fetch ∈ p.workers) :
    p.queue.first ≠ none := by
  intro hnone
  have hjs := hplaces.queue.eq_nil hnone
  have hadded := congrArg List.length (hplaces.early hearly)
  have hpos : 0 < p.workers.countP Worker.fetches := List.countP_pos_iff.mpr ⟨_, hfetch, rfl⟩
  have hsemaphore := h.semaphore
  have hgive : p.stage.toGive n = n := by
    obtain hstage | hstage := hearly <;> rw [hstage] <;> rfl
  rw [List.length_append, hjs, List.length_nil] at hadded
  omega

lemma Counts.work (h : p.Counts js n) (hplaces : p.Places js) {before after : List (Worker ι)} {w w' : Worker ι}
    (hworkers : p.workers = before ++ w :: after) (hwork : p.Work w t w') {js' : List ι} (hjs : js'.Sublist js) :
    Counts { t with workers := before ++ w' :: after } js' n := by
  have hframe := hwork.frame
  have hthreads := h.threads
  have hsemaphore := h.semaphore
  have hempty := h.empty
  have hearly := h.early
  rw [hworkers] at hthreads hsemaphore hempty hearly
  have hnil : js = [] → js' = [] := by
    rintro rfl
    exact List.sublist_nil.mp hjs
  have hstage : t.Early → p.Early := by
    rw [Early, Early, hframe.stage]
    exact id
  have hnothing : w = .fetch → w' = .check → ¬ p.Early ∧ js = [] := by
    rintro rfl rfl
    cases hwork with
    | nothing hfirst =>
      refine ⟨fun hbad => ?_, hplaces.queue.eq_nil hfirst⟩
      exact h.first_isSome hplaces hbad (by simp [hworkers]) hfirst
  refine ⟨?_, ?_, ?_, ?_, ?_, ?_⟩
  · rw [hframe.shutdown, hframe.stage]
    exact h.shutdown
  · simpa using hthreads
  · rw [hframe.added, hframe.adders, hframe.stage]
    cases hwork with
    | again hopen =>
      have hidle : p.stage = .idle := by
        by_contra hbad
        exact Bool.false_ne_true (hopen.symm.trans (h.shutdown.mpr hbad))
      have hzero := hearly (.inl hidle)
      simp [Worker.emptyHanded] at hzero
    | _ =>
      simp only [List.countP_append, List.countP_cons, List.length_append, List.length_singleton, Worker.fetches,
        Worker.emptyHanded, reduceIte, Bool.false_eq_true] at hsemaphore ⊢
      omega
  · intro hbad
    have hzero := hearly (hstage hbad)
    cases hwork with
    | nothing hfirst => exact absurd (hstage hbad) (hnothing rfl rfl).1
    | exit => simp [List.countP_cons, Worker.emptyHanded] at hzero
    | again => simp [List.countP_cons, Worker.emptyHanded] at hzero
    | _ => simpa [List.countP_cons, Worker.emptyHanded] using hzero
  · intro hpos
    cases hwork with
    | nothing hfirst => exact hnil (hnothing rfl rfl).2
    | _ =>
      refine hnil (hempty ?_)
      simp [List.countP_cons, Worker.emptyHanded] at hpos ⊢ <;> tauto
  · intro hbad
    rw [hframe.stage] at hbad
    have hexited : w = .exited := h.joined hbad w (by simp [hworkers])
    subst hexited
    cases hwork

namespace Inv

lemma insert (h : p.Inv n js) {before after : List (Adder ι)} {job : ι} (hadders : p.adders = before ++ .insert job :: after)
    (hearly : p.Early) :
    Inv { p with queue := p.queue.push job, added := p.added ++ [job], adders := before ++ .signal :: after } n
      (js ++ [job]) := by
  refine ⟨h.places.insert hadders hearly, h.states.insert hadders hearly, { h.counts with semaphore := ?_, empty := ?_ }⟩
  · have hsemaphore := h.counts.semaphore
    rw [hadders] at hsemaphore
    simp only [List.count_append, List.count_cons, List.length_append, List.length_singleton, beq_self_eq_true,
      reduceIte] at hsemaphore ⊢
    simp only [beq_iff_eq, reduceCtorEq, reduceIte] at hsemaphore
    omega
  · intro hpos
    exact absurd (h.counts.early hearly) (Nat.ne_of_gt hpos)

lemma signal (h : p.Inv n js) {before after : List (Adder ι)} (hadders : p.adders = before ++ .signal :: after) :
    Inv { p with semaphore := p.semaphore + 1, adders := before ++ after } n js := by
  refine ⟨h.places.signal hadders _, h.states.signal hadders _, { h.counts with semaphore := ?_ }⟩
  have hsemaphore := h.counts.semaphore
  rw [hadders] at hsemaphore
  simp only [List.count_append, List.count_cons, beq_self_eq_true, reduceIte] at hsemaphore ⊢
  omega

lemma work (h : p.Inv n js) {before after : List (Worker ι)} {w w' : Worker ι}
    (hworkers : p.workers = before ++ w :: after) (hwork : p.Work w t w') :
    ∃ js', Inv { t with workers := before ++ w' :: after } n js' := by
  have hstart : ∀ job, w = .start job → p.state job = .queued := by
    rintro job rfl
    exact h.states.workers (.start job) (by simp [hworkers])
  obtain ⟨js', hplaces, hjs, htaken⟩ := h.places.work hworkers hwork hstart
  exact ⟨js', hplaces, h.states.work h.places hworkers hwork hjs htaken, h.counts.work h.places hworkers hwork hjs⟩

lemma shutdown (h : p.Inv n js) (hstep : p.shutdownStep = some t) (hmeets : p.Meets .shutdown) : ∃ js', t.Inv n js' := by
  have hkept : p.Kept js := ⟨h.places, h.states⟩
  have hcounts := h.counts
  have hsemaphore := hcounts.semaphore
  rw [shutdownStep.eq_def] at hstep
  cases hstage : p.stage with
  | idle =>
    rw [hstage] at hstep hsemaphore
    obtain rfl := Option.some.inj hstep
    obtain ⟨hplaces, hstates⟩ := hkept.shutdown_idle hstage
    refine ⟨js, hplaces, hstates, { hcounts with shutdown := ?_, semaphore := hsemaphore, early := ?_, joined := ?_ }⟩
    · simp
    · exact fun _ => hcounts.early (.inl hstage)
    · exact fun hbad => nomatch hbad
  | abortQueued =>
    obtain ⟨q, hqueued, hq⟩ := abortQueued_eq h.places
    rw [hstage, hqueued] at hstep
    rw [hstage] at hsemaphore
    obtain rfl := Option.some.inj hstep
    obtain ⟨hplaces, hstates⟩ := hkept.shutdown_queued hq
    refine ⟨_, hplaces, hstates,
      { hcounts with shutdown := ?_, semaphore := hsemaphore, early := ?_, empty := ?_, joined := ?_ }⟩
    · simpa [hstage] using hcounts.shutdown
    · rintro (hbad | hbad) <;> exact nomatch hbad
    · intro hpos
      exact absurd (hcounts.early (.inr hstage)) (Nat.ne_of_gt hpos)
    · exact fun hbad => nomatch hbad
  | abortRunning =>
    rw [hstage, abortRunning_eq] at hstep
    rw [hstage] at hsemaphore
    obtain rfl := Option.some.inj hstep
    obtain ⟨hplaces, hstates⟩ := hkept.shutdown_running hstage hmeets p.workers.length
    refine ⟨js, hplaces, hstates, { hcounts with shutdown := ?_, semaphore := ?_, early := ?_, joined := ?_ }⟩
    · simpa [hstage] using hcounts.shutdown
    · rw [hcounts.threads]
      exact hsemaphore
    · rintro (hbad | hbad) <;> exact nomatch hbad
    · exact fun hbad => nomatch hbad
  | wake m =>
    cases m with
    | succ m =>
      rw [hstage] at hstep hsemaphore
      obtain rfl := Option.some.inj hstep
      obtain ⟨hplaces, hstates⟩ := hkept.shutdown_wake hstage (.inr ⟨m, rfl⟩) (p.semaphore + 1)
      refine ⟨js, hplaces, hstates, { hcounts with shutdown := ?_, semaphore := ?_, early := ?_, joined := ?_ }⟩
      · simpa [hstage] using hcounts.shutdown
      · simp only [ShutdownStage.toGive] at hsemaphore ⊢
        omega
      · rintro (hbad | hbad) <;> exact nomatch hbad
      · exact fun hbad => nomatch hbad
    | zero =>
      rw [hstage] at hstep hsemaphore
      by_cases hexited : ∀ w ∈ p.workers, w = .exited
      · simp only [if_pos hexited] at hstep
        obtain rfl := Option.some.inj hstep
        obtain ⟨hplaces, hstates⟩ := hkept.shutdown_wake hstage (.inl rfl) p.semaphore
        refine ⟨js, hplaces, hstates, { hcounts with shutdown := ?_, semaphore := hsemaphore, early := ?_, joined := ?_ }⟩
        · simpa [hstage] using hcounts.shutdown
        · rintro (hbad | hbad) <;> exact nomatch hbad
        · exact fun _ => hexited
      · simp only [if_neg hexited] at hstep
        exact nomatch hstep
  | joined =>
    rw [hstage] at hstep
    exact nomatch hstep

lemma move (h : p.Inv n js) (hmove : p.Move t) : ∃ js', t.Inv n js' := by
  cases hmove with
  | accept job hnew hopen =>
    refine ⟨js, h.places.accept hnew, h.states.accept hnew hopen, { h.counts with semaphore := ?_ }⟩
    have hsemaphore := h.counts.semaphore
    simpa [List.count_append] using hsemaphore
  | reject job hnew hshutdown =>
    have hstates := h.states.reject h.places hnew hshutdown
    rw [abort_eq] at hstates ⊢
    refine ⟨js, h.places.of_eq rfl rfl rfl rfl rfl rfl rfl rfl id, hstates, { h.counts with }⟩
  | insert before after job hadders hearly => exact ⟨_, h.insert hadders hearly⟩
  | signal before after hadders => exact ⟨js, h.signal hadders⟩
  | work before after w w' t hworkers hwork => exact h.work hworkers hwork
  | shutdown t hstep hmeets => exact h.shutdown hstep hmeets

end Inv

/-! ### Progress -/

/-- What is left to do. -/
def remaining (p : JobPool ι) : ℕ :=
  (p.adders.map Adder.weight).sum + 10 * p.semaphore + (p.workers.map Worker.weight).sum + p.stage.weight p.workers.length

lemma remaining_work {before after : List (Worker ι)} {w w' : Worker ι} (hworkers : p.workers = before ++ w :: after)
    (hwork : p.Work w t w') : remaining { t with workers := before ++ w' :: after } < p.remaining := by
  have hframe := hwork.frame
  rw [remaining, remaining, hframe.adders, hframe.stage, hworkers]
  cases hwork with
  | wait hpos =>
    simp [Worker.weight]
    omega
  | _ => simp [Worker.weight]

lemma remaining_shutdown (h : p.Inv n js) (hstep : p.shutdownStep = some t) (hstage : p.stage ≠ .idle) :
    t.remaining < p.remaining := by
  rw [shutdownStep.eq_def] at hstep
  cases hnow : p.stage with
  | idle => exact absurd hnow hstage
  | abortQueued =>
    obtain ⟨q, hqueued, -⟩ := abortQueued_eq h.places
    rw [hnow, hqueued] at hstep
    obtain rfl := Option.some.inj hstep
    simp [remaining, hnow, ShutdownStage.weight]
  | abortRunning =>
    rw [hnow, abortRunning_eq] at hstep
    obtain rfl := Option.some.inj hstep
    simp [remaining, hnow, ShutdownStage.weight]
  | wake m =>
    cases m with
    | succ m =>
      rw [hnow] at hstep
      obtain rfl := Option.some.inj hstep
      simp only [remaining, hnow, ShutdownStage.weight]
      omega
    | zero =>
      rw [hnow] at hstep
      by_cases hexited : ∀ w ∈ p.workers, w = .exited
      · simp only [if_pos hexited] at hstep
        obtain rfl := Option.some.inj hstep
        simp [remaining, hnow, ShutdownStage.weight]
      · simp only [if_neg hexited] at hstep
        exact nomatch hstep
  | joined =>
    rw [hnow] at hstep
    exact nomatch hstep

lemma remaining_of_ownStep (h : p.Inv n js) (hstep : p.OwnStep t) : t.remaining < p.remaining := by
  obtain ⟨event, hadd, hcall, hmeets, hstep⟩ := hstep
  cases event with
  | add job => exact absurd rfl (hadd job)
  | adder i =>
    obtain ⟨before, job, after, -, hsplit, rfl⟩ | ⟨before, after, -, hsplit, rfl⟩ := adder_cases hstep
    · rw [remaining, remaining, hsplit]
      simp [Adder.weight]
    · rw [remaining, remaining, hsplit]
      simp [Adder.weight]
      omega
  | worker i =>
    obtain ⟨before, after, w, w', r, hsplit, hwork, rfl⟩ := worker_cases hstep
    exact remaining_work hsplit hwork
  | shutdown => exact remaining_shutdown h hstep fun hidle => hcall ⟨rfl, hidle⟩

/-- Nobody can take a step. -/
structure Stuck (p : JobPool ι) : Prop where
  workers : ∀ w ∈ p.workers, p.workerStep w = none
  adders : .signal ∈ p.adders → p.stage = .joined
  shutdown : p.stage ≠ .idle → p.Meets .shutdown → p.shutdownStep = none

lemma stuck_of_forall (h : ∀ t, ¬ p.OwnStep t) : p.Stuck := by
  have hnone : ∀ event : JobEvent ι, (∀ job, event ≠ .add job) → ¬ (event = .shutdown ∧ p.stage = .idle) →
      p.Meets event → p.step event = none := by
    intro event hadd hcall hmeets
    rw [Option.eq_none_iff_forall_ne_some]
    exact fun t ht => h t ⟨event, hadd, hcall, hmeets, ht⟩
  refine ⟨fun w hw => ?_, fun ha => ?_, fun hidle hmeets => ?_⟩
  · obtain ⟨i, hi⟩ := List.mem_iff_getElem?.mp hw
    have hstep := hnone (.worker i) (by rintro _ ⟨⟩) (by rintro ⟨⟨⟩, -⟩) trivial
    rw [step, hi] at hstep
    exact Option.map_eq_none_iff.mp hstep
  · obtain ⟨i, hi⟩ := List.mem_iff_getElem?.mp ha
    have hstep := hnone (.adder i) (by rintro _ ⟨⟩) (by rintro ⟨⟨⟩, -⟩) fun job hjob => by
      rw [hi] at hjob
      cases hjob
    rw [step, hi] at hstep
    by_contra hstage
    simp only [if_neg hstage] at hstep
    cases hstep
  · exact hnone .shutdown (by rintro _ ⟨⟩) (fun hbad => hidle hbad.2) hmeets

/-- The worker threads wait for a signal or have exited. -/
lemma Stuck.worker (h : p.Stuck) (hinv : p.Inv n js) {w : Worker ι} (hw : w ∈ p.workers) :
    w = .wait ∧ p.semaphore = 0 ∨ w = .exited := by
  have hnone := h.workers w hw
  have hstate := hinv.states.workers w hw
  have hno : ∀ {t w'}, ¬ p.Work w t w' := by
    intro t w' hwork
    rw [work_iff.mpr hwork] at hnone
    exact nomatch hnone
  cases w with
  | wait =>
    by_cases hsemaphore : p.semaphore = 0
    · exact .inl ⟨rfl, hsemaphore⟩
    · exact absurd (.wait (Nat.pos_of_ne_zero hsemaphore)) hno
  | fetch =>
    cases hfirst : p.queue.first with
    | none => exact absurd (.nothing hfirst) hno
    | some job => exact absurd (.fetch job hfirst) hno
  | start job => exact absurd (.start job hstate) hno
  | enter job => exact absurd (.enter job) hno
  | run job => exact absurd (.run job) hno
  | leave job =>
    have hrunning : job ∈ p.running := hinv.places.mem_running_iff.mpr ⟨_, hw, by simp [Worker.entered]⟩
    exact absurd (.leave job hrunning) hno
  | finish job =>
    obtain hrunning | haborted := hstate
    · exact absurd (.done job hrunning) hno
    · exact absurd (.stopped job haborted) hno
  | check =>
    cases hshutdown : p.shutdown with
    | true => exact absurd (.exit hshutdown) hno
    | false => exact absurd (.again hshutdown) hno
  | exited => exact .inr rfl

/-- The queue is empty, and `Shutdown` has not been called or has returned. -/
lemma Stuck.stage (h : p.Stuck) (hinv : p.Inv n js) (hn : 0 < n) : js = [] ∧ (p.stage = .idle ∨ p.stage = .joined) := by
  have hcounts := hinv.counts
  have hsemaphore := hcounts.semaphore
  have hfetches : p.workers.countP Worker.fetches = 0 := by
    rw [List.countP_eq_zero]
    rintro w hw
    obtain ⟨rfl, -⟩ | rfl := h.worker hinv hw <;> exact Bool.false_ne_true
  have hsignal : p.stage ≠ .joined → p.adders.count .signal = 0 := fun hstage =>
    List.count_eq_zero.mpr fun hmem => hstage (h.adders hmem)
  have hwork : ∃ w, w ∈ p.workers := List.exists_mem_of_length_pos (hcounts.threads ▸ hn)
  have hmore : ∀ t, p.shutdownStep = some t → p.stage ≠ .idle → ¬ p.Meets .shutdown := by
    intro t ht hidle hmeets
    rw [h.shutdown hidle hmeets] at ht
    exact nomatch ht
  cases hstage : p.stage with
  | idle =>
    obtain ⟨w, hw⟩ := hwork
    have hearly := hcounts.early (.inl hstage)
    have hzero : p.semaphore = 0 := by
      obtain ⟨-, hzero⟩ | rfl := h.worker hinv hw
      · exact hzero
      · exact absurd rfl (List.countP_eq_zero.mp hearly _ hw)
    have hadded := congrArg List.length (hinv.places.early (.inl hstage))
    rw [hstage, hsignal (by rw [hstage]; exact fun hbad => nomatch hbad)] at hsemaphore
    rw [List.length_append] at hadded
    simp only [ShutdownStage.toGive] at hsemaphore
    exact ⟨List.length_eq_zero_iff.mp (by omega), .inl rfl⟩
  | abortQueued =>
    obtain ⟨q, hqueued, -⟩ := abortQueued_eq hinv.places
    have hstep : ∃ t, p.shutdownStep = some t := by
      rw [shutdownStep.eq_def, hstage, hqueued]
      exact ⟨_, rfl⟩
    obtain ⟨t, ht⟩ := hstep
    exact absurd (fun hbad => nomatch hstage.symm.trans hbad) (hmore t ht (fun hbad => nomatch hstage.symm.trans hbad))
  | abortRunning =>
    have hstep : ∃ t, p.shutdownStep = some t := by
      rw [shutdownStep.eq_def, hstage]
      exact ⟨_, rfl⟩
    obtain ⟨t, ht⟩ := hstep
    refine absurd (fun _ job _ => ⟨fun hmem => ?_, fun hmem => ?_⟩) (hmore t ht (fun hbad => nomatch hstage.symm.trans hbad))
    · obtain ⟨hbad, -⟩ | hbad := h.worker hinv hmem <;> exact nomatch hbad
    · obtain ⟨hbad, -⟩ | hbad := h.worker hinv hmem <;> exact nomatch hbad
  | wake m =>
    have hmeets : p.Meets .shutdown := fun hbad => nomatch hstage.symm.trans hbad
    have hidle : p.stage ≠ .idle := fun hbad => nomatch hstage.symm.trans hbad
    have hnone := h.shutdown hidle hmeets
    rw [shutdownStep.eq_def, hstage] at hnone
    cases m with
    | succ m => exact nomatch hnone
    | zero =>
      by_cases hexited : ∀ w ∈ p.workers, w = .exited
      · simp only [if_pos hexited] at hnone
        exact nomatch hnone
      · -- a thread that still waits has not taken its signal
        simp only [not_forall] at hexited
        obtain ⟨w, hw, hne⟩ := hexited
        obtain ⟨rfl, hzero⟩ | hbad := h.worker hinv hw
        · have hless : p.workers.countP Worker.emptyHanded < p.workers.length := by
            refine lt_of_le_of_ne List.countP_le_length fun hall => ?_
            exact Bool.false_ne_true (List.countP_eq_length.mp hall _ hw)
          have horder := hinv.places.order.length_le
          have hthreads := hcounts.threads
          rw [hstage, hsignal (by rw [hstage]; exact fun hbad => nomatch hbad)] at hsemaphore
          rw [List.length_append] at horder
          simp only [ShutdownStage.toGive] at hsemaphore
          omega
        · exact absurd hbad hne
  | joined =>
    obtain ⟨w, hw⟩ := hwork
    obtain rfl := hcounts.joined hstage w hw
    exact ⟨hcounts.empty (List.countP_pos_iff.mpr ⟨_, hw, rfl⟩), .inr rfl⟩

lemma Stuck.final (h : p.Stuck) (hinv : p.Inv n js) (hn : 0 < n) : p.Final := by
  obtain ⟨rfl, hstage⟩ := h.stage hinv hn
  have hplaces := hinv.places
  have hreturned : ∀ j ∈ p.taken, p.ran.count j = 1 ∧ j ∈ p.returned := by
    intro j hj
    obtain ⟨w, hw, hheld⟩ | ⟨w, hw, hruns⟩ | hreturned := hplaces.taken_cases hj
    · obtain ⟨rfl, -⟩ | rfl := h.worker hinv hw <;> exact nomatch hheld
    · obtain ⟨rfl, -⟩ | rfl := h.worker hinv hw <;> exact nomatch hruns
    · have hle := hplaces.count_le j
      have hpos := List.count_pos_iff.mpr hreturned
      obtain ⟨hheld, hran, -, -⟩ := hplaces.counted j
      exact ⟨by omega, hreturned⟩
  constructor
  · intro j hj
    by_cases htaken : j ∈ p.taken
    · exact .inl (hreturned j htaken)
    · obtain hbad | hbad | ⟨hjob, hstate⟩ := hinv.states.removed j hj
      · exact absurd hbad htaken
      · exact absurd hbad List.not_mem_nil
      · refine .inr ⟨fun hearly => htaken ?_, hjob, hstate⟩
        have hadded := hplaces.early hearly
        rw [List.append_nil] at hadded
        exact hadded ▸ hj
  · intro hshutdown
    exact hstage.resolve_left (hinv.counts.shutdown.mp hshutdown)

/-! ### Every run -/

lemma Inv.good (h : p.Inv n js) : p.Good js where
  queue := h.places.queue
  once := by
    have hran : ∀ j, p.ran.count j ≤ p.taken.count j := fun j => by
      rw [(h.places.counted j).held]
      exact Nat.le_add_right _ _
    constructor
    · rw [List.nodup_iff_count_le_one]
      intro j
      have hle := h.places.count_le j
      have := hran j
      omega
    · intro j hj
      have hpos := List.count_pos_iff.mpr hj
      exact h.places.mem_added (.inl (List.count_pos_iff.mp (Nat.lt_of_lt_of_le hpos (hran j))))
  order := by
    refine ⟨List.nodup_iff_count_le_one.mpr fun j => ?_, h.places.order⟩
    exact Nat.le_trans (Nat.le_add_right _ _) (h.places.distinct j)
  kept j hj := by
    by_cases hjs : j ∈ js
    · exact .inl hjs
    · by_cases htaken : j ∈ p.taken
      · obtain ⟨w, hw, hheld⟩ | ⟨w, hw, hruns⟩ | hreturned := h.places.taken_cases htaken
        · exact .inr (.inl ⟨w, hw, .inl hheld⟩)
        · exact .inr (.inl ⟨w, hw, .inr hruns⟩)
        · exact .inr (.inr (.inl hreturned))
      · obtain hbad | hbad | haborted := h.states.removed j hj
        · exact absurd hbad htaken
        · exact absurd hbad hjs
        · refine .inr (.inr (.inr ⟨fun hearly => ?_, haborted⟩))
          rw [← h.places.early hearly, List.mem_append] at hj
          exact hj.elim htaken hjs
  exited hexited := by
    have hpos : 0 < p.workers.countP Worker.emptyHanded := List.countP_pos_iff.mpr ⟨_, hexited, rfl⟩
    refine ⟨h.counts.shutdown.mpr fun hidle => ?_, h.counts.empty hpos⟩
    exact Nat.ne_of_gt hpos (h.counts.early (.inl hidle))
  aborted := h.states.aborted

lemma inv_of_run (abortable : ι → Bool) {m : ℕ} (hrun : RunOf MeetsStep (init abortable n) m p) : ∃ js, p.Inv n js := by
  have hinit : ∃ js, Inv (init abortable n) n js := ⟨[], inv_init abortable n⟩
  refine @RunOf.invariant _ MeetsStep _ (fun p => ∃ js, p.Inv n js) hinit ?_ m p hrun
  rintro b c ⟨js, hb⟩ ⟨event, hmeets, hstep⟩
  exact hb.move (move_of_step hmeets hstep)

/-- In a run without the race every job that was added is run once or aborted, in order, and the threads do not stop
before this is done. -/
theorem jobs_run_once (abortable : ι → Bool) (hn : 0 < n) {m : ℕ} (hrun : RunOf MeetsStep (init abortable n) m p) :
    (∃ js, p.Good js) ∧ Completes OwnStep p Final := by
  obtain ⟨js, hp⟩ := inv_of_run abortable hrun
  refine ⟨⟨js, hp.good⟩, ?_⟩
  have hinit : ∃ js, p.Inv n js := ⟨js, hp⟩
  refine @completes_of_measure _ OwnStep p (fun b => ∃ js, b.Inv n js) remaining Final hinit ?_ ?_ ?_
  · rintro b c ⟨js, hb⟩ ⟨event, -, -, hmeets, hstep⟩
    exact hb.move (move_of_step hmeets hstep)
  · rintro b c ⟨js, hb⟩ hstep
    exact remaining_of_ownStep hb hstep
  · rintro b ⟨js, hb⟩ hstuck
    exact (stuck_of_forall hstuck).final hb hn

/-- One thread, and one job that is inserted. -/
theorem jobs_run_once_one : ∃ p, RunOf MeetsStep (init (fun _ : ℕ => true) 1) 3 p ∧ p.added = [0] ∧
    (∃ js, p.Good js) ∧ Completes OwnStep p Final := by
  have hrun : ∃ p, RunOf MeetsStep (init (fun _ : ℕ => true) 1) 3 p ∧ p.added = [0] :=
    ⟨_, .snoc (.snoc (.snoc .nil ⟨.add 0, trivial, rfl⟩) ⟨.adder 0, fun _ _ => .inl rfl, rfl⟩)
      ⟨.adder 0, fun _ _ => .inl rfl, rfl⟩, rfl⟩
  obtain ⟨p, hrun, hadded⟩ := hrun
  exact ⟨p, hrun, hadded, jobs_run_once _ Nat.one_pos hrun⟩

/-! ### The race -/

/-- Any step. -/
def Step (p t : JobPool ι) : Prop := ∃ event, p.step event = some t

lemma runOf_events {events : List (JobEvent ι)} (h : events.foldlM step p = some t) : RunOf Step p events.length t := by
  induction events using List.reverseRecOn generalizing t with
  | nil =>
    obtain rfl := Option.some.inj h
    exact .nil
  | append_singleton events event ih =>
    rw [List.foldlM_append] at h
    obtain ⟨b, hb, hlast⟩ := Option.bind_eq_some_iff.mp h
    rw [List.length_append]
    exact .snoc (ih hb) ⟨event, by simpa using hlast⟩

/-- A thread has fetched the job when `Shutdown` walks the running jobs, which leaves the job as it is.  A job that `Add`
inserts behind `Shutdown` stays in the queue. -/
theorem not_jobs_run_once :
    (∃ m p, RunOf Step (init (fun _ : ℕ => true) 1) m p ∧ p.Late ∧ p.state 0 = .queued ∧ .start 0 ∈ p.workers ∧
      ∀ js, ¬ p.Good js) ∧
    ∃ m p, RunOf Step (init (fun _ : ℕ => true) 1) m p ∧ p.stage = .joined ∧ p.queue.first = some 0 ∧
      ∀ js, ¬ p.Good js := by
  constructor
  · have hrun : (List.foldlM step (init (fun _ : ℕ => true) 1) [.add 0, .adder 0, .adder 0, .worker 0, .worker 0, .shutdown,
        .shutdown, .shutdown]).map (fun p => (p.stage, p.state 0, p.workers, p.added, p.returned, p.abortable 0)) =
        some (.wake 1, .queued, [.start 0], [0], [], true) := rfl
    obtain ⟨p, hp, hfields⟩ := Option.map_eq_some_iff.mp hrun
    simp only [Prod.mk.injEq] at hfields
    obtain ⟨hstage, hstate, hworkers, hadded, hreturned, habortable⟩ := hfields
    have hlate : p.Late := by
      constructor
      · rintro (hbad | hbad) <;> exact nomatch hstage.symm.trans hbad
      · exact fun hbad => nomatch hstage.symm.trans hbad
    refine ⟨_, p, runOf_events hp, hlate, hstate, by simp [hworkers], fun js hgood => ?_⟩
    obtain hbad | hbad := hgood.aborted hlate 0 (by simp [hadded]) habortable
    · simp [hreturned] at hbad
    · exact nomatch hstate.symm.trans hbad
  · have hrun : (List.foldlM step (init (fun _ : ℕ => true) 1) [.add 0, .shutdown, .shutdown, .shutdown, .shutdown, .worker 0,
        .worker 0, .worker 0, .shutdown, .adder 0]).map (fun p => (p.stage, p.queue.first, p.workers)) =
        some (.joined, some 0, [.exited]) := rfl
    obtain ⟨p, hp, hfields⟩ := Option.map_eq_some_iff.mp hrun
    simp only [Prod.mk.injEq] at hfields
    obtain ⟨hstage, hfirst, hworkers⟩ := hfields
    refine ⟨_, p, runOf_events hp, hstage, hfirst, fun js hgood => ?_⟩
    have hjs := (hgood.exited (by simp [hworkers])).2
    have hempty := hgood.queue.first
    rw [hjs, hfirst] at hempty
    exact nomatch hempty

end JobPool

end DDNet
