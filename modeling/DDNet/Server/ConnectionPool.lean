/-
The queue of the database queries (`CDbConnectionPool`, `engine/server/databases/connection_pool.cpp`).

The main thread stores queries into a ring of slots, the backup thread looks at each of them, and the
worker thread takes them out of the ring and executes them.  The steps of the three threads are atomic
here as the claims of the code on its semaphores and slots are: the store into a slot, the signal and the
wait of a semaphore, the load or move of a slot, and the access to the shutdown flag.  What a thread does
with a query lies between the step that gets it and the next step of the thread.  A semaphore is its count.
-/
import Mathlib.Data.List.Basic
import Mathlib.Data.List.Infix
import Mathlib.Logic.Function.Basic
import Mathlib.Tactic.Common

namespace DDNet

/-- `std::size(m_aQueries)`. -/
def numQueries : ℕ := 512

/-! ### The threads -/

/-- Where the main thread is. -/
inductive MainThread where
  | idle
  /-- A query is stored, and `m_NumBackup` is to be signalled. -/
  | signal
  /-- In `OnShutdown`, before the signal. -/
  | signalShutdown
  /-- In the loop of `OnShutdown`. -/
  | waitShutdown
  /-- `OnShutdown` has returned. -/
  | returned
deriving DecidableEq

/-- Where `CBackup::ProcessQueries` is. -/
inductive BackupThread where
  | wait
  | load
  | signal
  /-- The slot was empty: the worker is to be signalled before the thread exits. -/
  | signalExit
  | exited
deriving DecidableEq

/-- Where `CWorker::ProcessQueries` is. -/
inductive WorkerThread where
  | wait
  | take
  /-- The slot was empty: the shutdown flag is to be cleared before the thread exits. -/
  | clear
  | exited
deriving DecidableEq

/-- `CDbConnectionPool` with its shared data and its threads, and what has happened to the queries. -/
structure CDbConnectionPool (Query : Type*) where
  queries : ℕ → Option Query
  insertIdx : ℕ
  numBackup : ℕ
  numWorker : ℕ
  /-- `m_pShared->m_Shutdown`. -/
  shutdown : Bool
  main : MainThread
  backup : BackupThread
  backupJob : ℕ
  worker : WorkerThread
  workerJob : ℕ
  submitted : List Query
  /-- The queries the backup thread has looked at. -/
  looked : List Query
  /-- The queries the worker has executed. -/
  processed : List Query
  /-- The queries that were destroyed in their slots. -/
  destroyed : List Query

/-- A step of a thread. -/
inductive DbAction (Query : Type*) where
  /-- `Execute`, `ExecuteWrite`, `RegisterSqliteDatabase`, `RegisterMysqlDatabase` or `Print`. -/
  | submit (query : Query)
  | onShutdown
  | main
  | backup
  | worker

namespace CDbConnectionPool

variable {Query : Type*}

/-- The pool after its construction. -/
def init : CDbConnectionPool Query where
  queries _ := none
  insertIdx := 0
  numBackup := 0
  numWorker := 0
  shutdown := false
  main := .idle
  backup := .wait
  backupJob := 0
  worker := .wait
  workerJob := 0
  submitted := []
  looked := []
  processed := []
  destroyed := []

/-- The store of a query, which destroys what the slot held. -/
def submit (pool : CDbConnectionPool Query) (query : Query) : CDbConnectionPool Query :=
  { pool with
    queries := Function.update pool.queries pool.insertIdx (some query)
    insertIdx := (pool.insertIdx + 1) % numQueries
    main := .signal
    submitted := pool.submitted ++ [query]
    destroyed := pool.destroyed ++ (pool.queries pool.insertIdx).toList }

/-- The next step of the main thread. -/
def mainStep (pool : CDbConnectionPool Query) : Option (CDbConnectionPool Query) :=
  match pool.main with
  | .signal => some { pool with numBackup := pool.numBackup + 1, main := .idle }
  | .signalShutdown => some { pool with numBackup := pool.numBackup + 1, main := .waitShutdown }
  | .waitShutdown => if pool.shutdown then none else some { pool with main := .returned }
  | _ => none

/-- The next step of the backup thread. -/
def backupStep (pool : CDbConnectionPool Query) : Option (CDbConnectionPool Query) :=
  match pool.backup with
  | .wait => if pool.numBackup = 0 then none
      else some { pool with numBackup := pool.numBackup - 1, backup := .load }
  | .load =>
      match pool.queries (pool.backupJob % numQueries) with
      -- work through all database jobs after OnShutdown is called before exiting the thread
      | none => some { pool with backup := .signalExit }
      | some query => some { pool with backup := .signal, looked := pool.looked ++ [query] }
  | .signal => some { pool with
      numWorker := pool.numWorker + 1, backupJob := pool.backupJob + 1, backup := .wait }
  | .signalExit => some { pool with numWorker := pool.numWorker + 1, backup := .exited }
  | .exited => none

/-- The next step of the worker thread. -/
def workerStep (pool : CDbConnectionPool Query) : Option (CDbConnectionPool Query) :=
  match pool.worker with
  | .wait => if pool.numWorker = 0 then none
      else some { pool with numWorker := pool.numWorker - 1, worker := .take }
  | .take =>
      match pool.queries (pool.workerJob % numQueries) with
      | none => some { pool with worker := .clear }
      | some query => some { pool with
          queries := Function.update pool.queries (pool.workerJob % numQueries) none
          processed := pool.processed ++ [query]
          workerJob := pool.workerJob + 1
          worker := .wait }
  | .clear => some { pool with shutdown := false, worker := .exited }
  | .exited => none

/-- A step; `none` if the thread cannot take it. -/
def step (pool : CDbConnectionPool Query) : DbAction Query → Option (CDbConnectionPool Query)
  | .submit query => if pool.main = .idle then some (pool.submit query) else none
  | .onShutdown =>
      if pool.main = .idle then some { pool with shutdown := true, main := .signalShutdown } else none
  | .main => pool.mainStep
  | .backup => pool.backupStep
  | .worker => pool.workerStep

/-- A run. -/
def run (pool : CDbConnectionPool Query) : List (DbAction Query) → Option (CDbConnectionPool Query)
  | [] => some pool
  | action :: actions => (pool.step action).bind fun pool => pool.run actions

/-! ### The invariant -/

/-- `OnShutdown` has been called. -/
def called (pool : CDbConnectionPool Query) : Prop :=
  pool.main = .signalShutdown ∨ pool.main = .waitShutdown ∨ pool.main = .returned

/-- Fewer queries than the ring has slots are submitted and not yet taken by the worker. -/
def HasRoom (pool : CDbConnectionPool Query) : Prop :=
  pool.submitted.length < pool.processed.length + numQueries

/-- The main thread submits a query, or shuts down, only if there is room. -/
def ActionOk (pool : CDbConnectionPool Query) : DbAction Query → Prop
  | .submit _ => pool.HasRoom
  | .onShutdown => pool.HasRoom
  | _ => True

/-- Every step of a run meets the condition in the state in which it is taken. -/
def RunOk : CDbConnectionPool Query → List (DbAction Query) → Prop
  | _, [] => True
  | pool, action :: actions => pool.ActionOk action ∧ ∀ pool' ∈ pool.step action, RunOk pool' actions

instance (pool : CDbConnectionPool Query) : Decidable pool.HasRoom :=
  inferInstanceAs (Decidable (_ < _))

instance (pool : CDbConnectionPool Query) : (action : DbAction Query) → Decidable (pool.ActionOk action)
  | .submit _ => inferInstanceAs (Decidable pool.HasRoom)
  | .onShutdown => inferInstanceAs (Decidable pool.HasRoom)
  | .main => instDecidableTrue
  | .backup => instDecidableTrue
  | .worker => instDecidableTrue

instance decidableRunOk (pool : CDbConnectionPool Query) :
    (actions : List (DbAction Query)) → Decidable (pool.RunOk actions)
  | [] => instDecidableTrue
  | action :: actions =>
      have : DecidablePred fun pool : CDbConnectionPool Query => pool.RunOk actions := fun pool =>
        decidableRunOk pool actions
      inferInstanceAs (Decidable (pool.ActionOk action ∧ ∀ pool' ∈ pool.step action, RunOk pool' actions))

/-- The signals that the main thread owes or has given beyond the queries. -/
def mainOwes : MainThread → ℕ
  | .signal => 1
  | _ => 0

@[inherit_doc mainOwes] def mainExtra : MainThread → ℕ
  | .waitShutdown => 1
  | .returned => 1
  | _ => 0

/-- The waits of the backup thread beyond its finished jobs. -/
def backupWaited : BackupThread → ℕ
  | .wait => 0
  | _ => 1

/-- The queries it has looked at beyond its finished jobs. -/
def backupLooked : BackupThread → ℕ
  | .signal => 1
  | _ => 0

/-- Its signals beyond its finished jobs. -/
def backupSignalled : BackupThread → ℕ
  | .exited => 1
  | _ => 0

/-- The waits of the worker beyond its finished jobs. -/
def workerWaited : WorkerThread → ℕ
  | .wait => 0
  | _ => 1

/-- The slots hold the queries that the worker has not taken, and the counts of the semaphores are what
the threads have signalled and not waited for. -/
structure Inv (pool : CDbConnectionPool Query) : Prop where
  insertIdx : pool.insertIdx = pool.submitted.length % numQueries
  looked : pool.looked <+: pool.submitted
  processed : pool.processed <+: pool.looked
  room : pool.submitted.length ≤ pool.processed.length + numQueries
  full : ∀ j, pool.processed.length ≤ j → j < pool.submitted.length →
    pool.queries (j % numQueries) = pool.submitted[j]?
  empty : ∀ j, pool.submitted.length ≤ j → j < pool.processed.length + numQueries →
    pool.queries (j % numQueries) = none
  backupJob : pool.looked.length = pool.backupJob + backupLooked pool.backup
  workerJob : pool.processed.length = pool.workerJob
  numBackup : pool.numBackup + pool.backupJob + backupWaited pool.backup + mainOwes pool.main =
    pool.submitted.length + mainExtra pool.main
  numWorker : pool.numWorker + pool.workerJob + workerWaited pool.worker =
    pool.backupJob + backupSignalled pool.backup
  calledRoom : pool.called → pool.HasRoom
  backupExit : pool.backup = .signalExit ∨ pool.backup = .exited →
    pool.called ∧ pool.looked = pool.submitted
  workerExit : pool.worker = .clear ∨ pool.worker = .exited →
    pool.backup = .exited ∧ pool.processed = pool.submitted
  flag : pool.called → pool.shutdown = false → pool.worker = .exited
  destroyed : pool.destroyed = []

lemma init_inv : Inv (init : CDbConnectionPool Query) where
  insertIdx := rfl
  looked := List.prefix_refl _
  processed := List.prefix_refl _
  room := Nat.zero_le _
  full j _ h := absurd h (Nat.not_lt_zero j)
  empty _ _ _ := rfl
  backupJob := rfl
  workerJob := rfl
  numBackup := rfl
  numWorker := rfl
  calledRoom h := by rcases h with h | h | h <;> exact absurd h nofun
  backupExit h := by rcases h with h | h <;> exact absurd h nofun
  workerExit h := by rcases h with h | h <;> exact absurd h nofun
  flag h := by rcases h with h | h | h <;> exact absurd h nofun
  destroyed := rfl

/-- The first elements of a list and the next one. -/
lemma prefix_next {l m : List Query} (h : l <+: m) (hlt : l.length < m.length) : l ++ [m[l.length]] <+: m := by
  obtain ⟨t, rfl⟩ := h
  obtain - | ⟨q, t⟩ := t
  · rw [List.append_nil] at hlt
    exact absurd hlt (lt_irrefl _)
  · rw [List.getElem_append_right le_rfl]
    exact ⟨t, by simp⟩

/-- Jobs that are less than the ring apart have different slots. -/
lemma slot_ne {i j : ℕ} (hne : i ≠ j) (hi : i < j + numQueries) (hj : j < i + numQueries) :
    i % numQueries ≠ j % numQueries := by
  rw [numQueries] at *
  omega

/-! ### The steps of the main thread -/

lemma Inv.submit {pool : CDbConnectionPool Query} (h : pool.Inv) (hidle : pool.main = .idle)
    (hroom : pool.HasRoom) (query : Query) : (pool.submit query).Inv := by
  have hlength : (pool.submit query).submitted.length = pool.submitted.length + 1 := List.length_append
  have hfree : pool.queries pool.insertIdx = none := by
    rw [h.insertIdx]
    exact h.empty _ le_rfl hroom
  have hnotCalled : ¬ (pool.submit query).called := by
    rintro (h | h | h) <;> exact absurd h nofun
  have hle := h.processed.length_le.trans h.looked.length_le
  refine ⟨?_, h.looked.trans (List.prefix_append _ _), h.processed, ?_, ?_, ?_, h.backupJob, h.workerJob, ?_,
    h.numWorker, fun hcalled => absurd hcalled hnotCalled, ?_, ?_, fun hcalled => absurd hcalled hnotCalled, ?_⟩
  · rw [hlength]
    show (pool.insertIdx + 1) % numQueries = _
    rw [h.insertIdx, Nat.mod_add_mod]
  · rw [hlength]
    exact hroom
  · intro j hj hlt
    rw [hlength] at hlt
    show Function.update pool.queries pool.insertIdx (some query) (j % numQueries) = (pool.submitted ++ [query])[j]?
    rw [h.insertIdx]
    rcases Nat.lt_succ_iff_lt_or_eq.1 hlt with hlt | rfl
    · have hslot : j % numQueries ≠ pool.submitted.length % numQueries :=
        slot_ne (Nat.ne_of_lt hlt) (by omega) (lt_of_lt_of_le hroom (Nat.add_le_add_right hj _))
      rw [Function.update_of_ne hslot, h.full j hj hlt, List.getElem?_append_left hlt]
    · rw [Function.update_self, List.getElem?_concat_length]
  · intro j hj hlt
    rw [hlength] at hj
    show Function.update pool.queries pool.insertIdx (some query) (j % numQueries) = none
    have hslot : j % numQueries ≠ pool.submitted.length % numQueries :=
      slot_ne (by omega) (lt_of_lt_of_le hlt (Nat.add_le_add_right hle _)) (by omega)
    rw [h.insertIdx, Function.update_of_ne hslot]
    exact h.empty j (by omega) hlt
  · have hcount := h.numBackup
    rw [hidle] at hcount
    rw [hlength]
    simp only [CDbConnectionPool.submit, mainOwes, mainExtra] at hcount ⊢
    omega
  · intro hexit
    obtain ⟨hcalled, -⟩ := h.backupExit hexit
    rcases hcalled with h | h | h <;> exact absurd (hidle.symm.trans h) nofun
  · intro hexit
    obtain ⟨hbackup, -⟩ := h.workerExit hexit
    obtain ⟨hcalled, -⟩ := h.backupExit (.inr hbackup)
    rcases hcalled with h | h | h <;> exact absurd (hidle.symm.trans h) nofun
  · show pool.destroyed ++ (pool.queries pool.insertIdx).toList = []
    rw [h.destroyed, hfree]
    rfl

/-- The store into a ring without room destroys a query. -/
lemma Inv.submit_destroyed {pool : CDbConnectionPool Query} (h : pool.Inv) (query : Query) :
    (pool.submit query).destroyed = [] ↔ pool.HasRoom := by
  have hstore : (pool.submit query).destroyed = (pool.queries pool.insertIdx).toList := by
    show pool.destroyed ++ _ = _
    rw [h.destroyed, List.nil_append]
  rw [hstore, h.insertIdx]
  constructor
  · intro hnone
    by_contra hfull
    have hlength : pool.submitted.length = pool.processed.length + numQueries :=
      Nat.le_antisymm h.room (not_lt.1 hfull)
    have hlt : pool.processed.length < pool.submitted.length := by
      rw [numQueries] at hlength
      omega
    have hslot := h.full _ le_rfl hlt
    rw [hlength, Nat.add_mod_right, hslot, List.getElem?_eq_getElem hlt] at hnone
    exact absurd hnone (List.cons_ne_nil _ _)
  · intro hroom
    rw [h.empty _ le_rfl hroom]
    rfl

/-- `OnShutdown` is called. -/
lemma Inv.onShutdown {pool : CDbConnectionPool Query} (h : pool.Inv) (hidle : pool.main = .idle)
    (hroom : pool.HasRoom) : Inv { pool with shutdown := true, main := .signalShutdown } where
  insertIdx := h.insertIdx
  looked := h.looked
  processed := h.processed
  room := h.room
  full := h.full
  empty := h.empty
  backupJob := h.backupJob
  workerJob := h.workerJob
  numBackup := by
    have hcount := h.numBackup
    rw [hidle] at hcount
    exact hcount
  numWorker := h.numWorker
  calledRoom _ := hroom
  backupExit hexit := ⟨.inl rfl, (h.backupExit hexit).2⟩
  workerExit := h.workerExit
  flag _ h := absurd h nofun
  destroyed := h.destroyed

/-- A step of the main thread that changes only the count and its place. -/
lemma Inv.mainMoves {pool : CDbConnectionPool Query} (h : pool.Inv) {main : MainThread} {numBackup : ℕ}
    (hcount : numBackup + mainOwes main + mainExtra pool.main =
      pool.numBackup + mainOwes pool.main + mainExtra main)
    (hcalled : (main = .signalShutdown ∨ main = .waitShutdown ∨ main = .returned) ↔ pool.called) :
    Inv { pool with numBackup := numBackup, main := main } where
  insertIdx := h.insertIdx
  looked := h.looked
  processed := h.processed
  room := h.room
  full := h.full
  empty := h.empty
  backupJob := h.backupJob
  workerJob := h.workerJob
  numBackup := by
    have hcount' := h.numBackup
    dsimp only
    omega
  numWorker := h.numWorker
  calledRoom hcall := h.calledRoom (hcalled.1 hcall)
  backupExit hexit := ⟨hcalled.2 (h.backupExit hexit).1, (h.backupExit hexit).2⟩
  workerExit := h.workerExit
  flag hcall := h.flag (hcalled.1 hcall)
  destroyed := h.destroyed

lemma Inv.mainStep {pool pool' : CDbConnectionPool Query} (h : pool.Inv) (hstep : pool.mainStep = some pool') :
    pool'.Inv := by
  rw [CDbConnectionPool.mainStep] at hstep
  cases hmain : pool.main with
  | idle => rw [hmain] at hstep; exact absurd hstep (Option.some_ne_none _).symm
  | signal =>
    rw [hmain] at hstep
    obtain rfl := Option.some.inj hstep
    refine h.mainMoves (by rw [hmain]; rfl) ?_
    rw [called, hmain]
    decide
  | signalShutdown =>
    rw [hmain] at hstep
    obtain rfl := Option.some.inj hstep
    refine h.mainMoves (by rw [hmain]; rfl) ?_
    rw [called, hmain]
    decide
  | waitShutdown =>
    rw [hmain] at hstep
    dsimp only at hstep
    split_ifs at hstep
    obtain rfl := Option.some.inj hstep
    refine h.mainMoves (by rw [hmain]; rfl) ?_
    rw [called, hmain]
    decide
  | returned => rw [hmain] at hstep; exact absurd hstep (Option.some_ne_none _).symm

/-! ### The steps of the backup thread -/

/-- A job of the backup thread that is not a query is the one of `OnShutdown`. -/
lemma Inv.backup_load {pool : CDbConnectionPool Query} (h : pool.Inv) (hload : pool.backup = .load) :
    pool.looked.length < pool.submitted.length ∧
        pool.queries (pool.backupJob % numQueries) = pool.submitted[pool.looked.length]? ∨
      pool.called ∧ pool.looked = pool.submitted ∧ pool.queries (pool.backupJob % numQueries) = none := by
  have hjob := h.backupJob
  have hcount := h.numBackup
  rw [hload] at hjob hcount
  simp only [backupLooked, backupWaited] at hjob hcount
  have hle := h.processed.length_le
  rcases h.looked.length_le.lt_or_eq with hlt | heq
  · left
    rw [show pool.backupJob = pool.looked.length by omega]
    exact ⟨hlt, h.full _ hle hlt⟩
  · right
    have hcalled : pool.called := by
      cases hmain : pool.main <;> rw [hmain] at hcount <;> simp only [mainOwes, mainExtra] at hcount <;>
        first | omega | simp [called, hmain]
    refine ⟨hcalled, h.looked.eq_of_length heq, ?_⟩
    rw [show pool.backupJob = pool.submitted.length by omega]
    exact h.empty _ le_rfl (h.calledRoom hcalled)

lemma Inv.backupStep {pool pool' : CDbConnectionPool Query} (h : pool.Inv)
    (hstep : pool.backupStep = some pool') : pool'.Inv := by
  have hworker : pool.backup ≠ .exited → ¬ (pool.worker = .clear ∨ pool.worker = .exited) := fun hne hexit =>
    hne (h.workerExit hexit).1
  have hjob := h.backupJob
  have hbackup := h.numBackup
  have hcount := h.numWorker
  rw [CDbConnectionPool.backupStep] at hstep
  cases hplace : pool.backup with
  | wait =>
    rw [hplace] at hstep hjob hbackup hcount hworker
    dsimp only at hstep
    split_ifs at hstep with hzero
    obtain rfl := Option.some.inj hstep
    exact { h with
      backupJob := hjob
      numBackup := by
        simp only [backupWaited] at hbackup ⊢
        omega
      numWorker := hcount
      backupExit := by rintro (h | h) <;> exact absurd h nofun
      workerExit := fun hexit => absurd hexit (hworker nofun) }
  | load =>
    rw [hplace] at hstep hjob hbackup hcount hworker
    dsimp only at hstep
    rcases h.backup_load hplace with ⟨hlt, hslot⟩ | ⟨hcalled, heq, hslot⟩
    · rw [hslot, List.getElem?_eq_getElem hlt] at hstep
      obtain rfl := Option.some.inj hstep
      have hpre : pool.looked ++ [pool.submitted[pool.looked.length]] <+: pool.submitted :=
        prefix_next h.looked hlt
      exact { h with
        looked := hpre
        processed := h.processed.trans (List.prefix_append _ _)
        backupJob := by
          rw [List.length_append]
          simp only [backupLooked, List.length_singleton] at hjob ⊢
          omega
        numBackup := hbackup
        numWorker := hcount
        backupExit := by rintro (h | h) <;> exact absurd h nofun
        workerExit := fun hexit => absurd hexit (hworker nofun) }
    · rw [hslot] at hstep
      obtain rfl := Option.some.inj hstep
      exact { h with
        backupJob := hjob
        numBackup := hbackup
        numWorker := hcount
        backupExit := fun _ => ⟨hcalled, heq⟩
        workerExit := fun hexit => absurd hexit (hworker nofun) }
  | signal =>
    rw [hplace] at hstep hjob hbackup hcount hworker
    obtain rfl := Option.some.inj hstep
    exact { h with
      backupJob := hjob
      numBackup := by
        simp only [backupWaited] at hbackup ⊢
        omega
      numWorker := by
        simp only [backupSignalled] at hcount ⊢
        omega
      backupExit := by rintro (h | h) <;> exact absurd h nofun
      workerExit := fun hexit => absurd hexit (hworker nofun) }
  | signalExit =>
    rw [hplace] at hstep hjob hbackup hcount hworker
    obtain rfl := Option.some.inj hstep
    exact { h with
      backupJob := hjob
      numBackup := hbackup
      numWorker := by
        simp only [backupSignalled] at hcount ⊢
        omega
      backupExit := fun _ => h.backupExit (.inl hplace)
      workerExit := fun hexit => absurd hexit (hworker nofun) }
  | exited => rw [hplace] at hstep; exact absurd hstep (Option.some_ne_none _).symm

/-! ### The steps of the worker -/

/-- A job of the worker that is not a query is the one of `OnShutdown`, after the backup thread has
exited. -/
lemma Inv.worker_take {pool : CDbConnectionPool Query} (h : pool.Inv) (htake : pool.worker = .take) :
    pool.processed.length < pool.looked.length ∧
        pool.queries (pool.workerJob % numQueries) = pool.submitted[pool.processed.length]? ∨
      pool.backup = .exited ∧ pool.processed = pool.submitted ∧
        pool.queries (pool.workerJob % numQueries) = none := by
  have hjob := h.backupJob
  have hcount := h.numWorker
  rw [htake] at hcount
  simp only [workerWaited] at hcount
  have hworkerJob := h.workerJob
  rcases h.processed.length_le.lt_or_eq with hlt | heq
  · left
    rw [← hworkerJob]
    exact ⟨hlt, h.full _ le_rfl (hlt.trans_le h.looked.length_le)⟩
  · right
    have hexited : pool.backup = .exited := by
      cases hplace : pool.backup <;> rw [hplace] at hjob hcount <;>
        simp only [backupLooked, backupSignalled] at hjob hcount <;> omega
    obtain ⟨hcalled, hall⟩ := h.backupExit (.inr hexited)
    have hprocessed : pool.processed = pool.submitted := (h.processed.eq_of_length heq).trans hall
    refine ⟨hexited, hprocessed, ?_⟩
    rw [← hworkerJob]
    have hroom := h.calledRoom hcalled
    exact h.empty _ (by rw [hprocessed]) (by rw [numQueries]; omega)

lemma Inv.workerStep {pool pool' : CDbConnectionPool Query} (h : pool.Inv)
    (hstep : pool.workerStep = some pool') : pool'.Inv := by
  have hcount := h.numWorker
  rw [CDbConnectionPool.workerStep] at hstep
  cases hplace : pool.worker with
  | wait =>
    rw [hplace] at hstep hcount
    dsimp only at hstep
    split_ifs at hstep with hzero
    obtain rfl := Option.some.inj hstep
    exact { h with
      numWorker := by
        simp only [workerWaited] at hcount ⊢
        omega
      workerExit := by rintro (h | h) <;> exact absurd h nofun
      flag := fun hcalled hflag => absurd (hplace.symm.trans (h.flag hcalled hflag)) nofun }
  | take =>
    rw [hplace] at hstep hcount
    dsimp only at hstep
    rcases h.worker_take hplace with ⟨hlt, hslot⟩ | ⟨hexited, hall, hslot⟩
    · have hlt' := hlt.trans_le h.looked.length_le
      rw [hslot, List.getElem?_eq_getElem hlt'] at hstep
      obtain rfl := Option.some.inj hstep
      have hpre : pool.processed ++ [pool.submitted[pool.processed.length]] <+: pool.looked := by
        rw [← h.looked.getElem hlt]
        exact prefix_next h.processed hlt
      have hlength : (pool.processed ++ [pool.submitted[pool.processed.length]]).length =
          pool.processed.length + 1 := List.length_append
      have hroom := h.room
      exact { h with
        processed := hpre
        room := hroom.trans (by rw [hlength]; omega)
        full := by
          intro j hj hj'
          rw [hlength] at hj
          have hbelow : j < pool.submitted.length := hj'
          have hslot : j % numQueries ≠ pool.processed.length % numQueries :=
            slot_ne (by omega) (by omega) (by omega)
          dsimp only
          rw [← h.workerJob, Function.update_of_ne hslot]
          exact h.full j (by omega) hj'
        empty := by
          intro j hj hj'
          rw [hlength] at hj'
          dsimp only
          rw [← h.workerJob, Function.update_apply]
          split_ifs with hsame
          · rfl
          · refine h.empty j hj (lt_of_le_of_ne (by omega) ?_)
            rintro rfl
            exact hsame (Nat.add_mod_right _ _)
        workerJob := hlength.trans (congrArg (· + 1) h.workerJob)
        numWorker := by
          simp only [workerWaited] at hcount ⊢
          omega
        calledRoom := fun hcalled => by
          have hroom' : pool.submitted.length < pool.processed.length + numQueries := h.calledRoom hcalled
          show pool.submitted.length < (pool.processed ++ _).length + numQueries
          rw [hlength]
          omega
        workerExit := by rintro (h | h) <;> exact absurd h nofun
        flag := fun hcalled hflag => absurd (hplace.symm.trans (h.flag hcalled hflag)) nofun }
    · rw [hslot] at hstep
      obtain rfl := Option.some.inj hstep
      exact { h with
        numWorker := hcount
        workerExit := fun _ => ⟨hexited, hall⟩
        flag := fun hcalled hflag => absurd (hplace.symm.trans (h.flag hcalled hflag)) nofun }
  | clear =>
    rw [hplace] at hstep hcount
    obtain rfl := Option.some.inj hstep
    exact { h with
      numWorker := hcount
      workerExit := fun _ => h.workerExit (.inl hplace)
      flag := fun _ _ => rfl }
  | exited => rw [hplace] at hstep; exact absurd hstep (Option.some_ne_none _).symm

/-! ### Runs -/

lemma Inv.step {pool pool' : CDbConnectionPool Query} (h : pool.Inv) {action : DbAction Query}
    (hok : pool.ActionOk action) (hstep : pool.step action = some pool') : pool'.Inv := by
  cases action with
  | submit query =>
    rw [CDbConnectionPool.step] at hstep
    split_ifs at hstep with hidle
    obtain rfl := Option.some.inj hstep
    exact h.submit hidle hok query
  | onShutdown =>
    rw [CDbConnectionPool.step] at hstep
    split_ifs at hstep with hidle
    obtain rfl := Option.some.inj hstep
    exact h.onShutdown hidle hok
  | main => exact h.mainStep hstep
  | backup => exact h.backupStep hstep
  | worker => exact h.workerStep hstep

lemma run_cons {pool pool' : CDbConnectionPool Query} {action : DbAction Query} {actions : List (DbAction Query)}
    (h : pool.run (action :: actions) = some pool') :
    ∃ next, pool.step action = some next ∧ next.run actions = some pool' :=
  Option.bind_eq_some_iff.1 h

lemma Inv.run {actions : List (DbAction Query)} {pool pool' : CDbConnectionPool Query} (h : pool.Inv)
    (hok : pool.RunOk actions) (hrun : pool.run actions = some pool') : pool'.Inv := by
  induction actions generalizing pool with
  | nil =>
    obtain rfl := Option.some.inj hrun
    exact h
  | cons action actions ih =>
    obtain ⟨next, hstep, hrun⟩ := run_cons hrun
    exact ih (h.step hok.1 hstep) (hok.2 next hstep) hrun

/-- No thread can take a step before the main thread is called again. -/
def Waiting (pool : CDbConnectionPool Query) : Prop :=
  pool.mainStep = none ∧ pool.backupStep = none ∧ pool.workerStep = none

lemma Waiting.main {pool : CDbConnectionPool Query} (h : pool.Waiting) : mainOwes pool.main = 0 := by
  have hnone := h.1
  rw [CDbConnectionPool.mainStep] at hnone
  cases hmain : pool.main with
  | signal => rw [hmain] at hnone; exact absurd hnone (Option.some_ne_none _)
  | idle => rfl
  | signalShutdown => rfl
  | waitShutdown => rfl
  | returned => rfl

lemma Waiting.backup {pool : CDbConnectionPool Query} (h : pool.Waiting) :
    pool.backup = .exited ∨ pool.backup = .wait ∧ pool.numBackup = 0 := by
  have hnone := h.2.1
  rw [CDbConnectionPool.backupStep] at hnone
  cases hplace : pool.backup with
  | wait =>
    rw [hplace] at hnone
    dsimp only at hnone
    split_ifs at hnone with hzero
    exact .inr ⟨rfl, hzero⟩
  | load =>
    rw [hplace] at hnone
    dsimp only at hnone
    split at hnone <;> exact absurd hnone (Option.some_ne_none _)
  | signal => rw [hplace] at hnone; exact absurd hnone (Option.some_ne_none _)
  | signalExit => rw [hplace] at hnone; exact absurd hnone (Option.some_ne_none _)
  | exited => exact .inl rfl

lemma Waiting.worker {pool : CDbConnectionPool Query} (h : pool.Waiting) :
    pool.worker = .exited ∨ pool.worker = .wait ∧ pool.numWorker = 0 := by
  have hnone := h.2.2
  rw [CDbConnectionPool.workerStep] at hnone
  cases hplace : pool.worker with
  | wait =>
    rw [hplace] at hnone
    dsimp only at hnone
    split_ifs at hnone with hzero
    exact .inr ⟨rfl, hzero⟩
  | take =>
    rw [hplace] at hnone
    dsimp only at hnone
    split at hnone <;> exact absurd hnone (Option.some_ne_none _)
  | clear => rw [hplace] at hnone; exact absurd hnone (Option.some_ne_none _)
  | exited => exact .inl rfl

/-- A bound on the steps that the threads take until they wait. -/
def mainWork : MainThread → ℕ
  | .idle => 0
  | .signal => 7
  | .signalShutdown => 8
  | .waitShutdown => 1
  | .returned => 0

@[inherit_doc mainWork] def backupWork : BackupThread → ℕ
  | .wait => 0
  | .load => 5
  | .signal => 4
  | .signalExit => 4
  | .exited => 0

@[inherit_doc mainWork] def workerWork : WorkerThread → ℕ
  | .wait => 0
  | .take => 2
  | .clear => 1
  | .exited => 0

@[inherit_doc mainWork] def work (pool : CDbConnectionPool Query) : ℕ :=
  mainWork pool.main + 6 * pool.numBackup + backupWork pool.backup + 3 * pool.numWorker + workerWork pool.worker

end CDbConnectionPool

end DDNet
