import HotelPms.Lib.Fair

/- `fas::ThreadedExecutor`: a queue of jobs, and the thread that runs them.

   Any number of threads call `spawn`, and so may the jobs themselves; the calls of `start`
   and `stop` come one after another, and not from a job. The sections under `_jobsMutex` are
   single steps. A call of `spawn` that has found the queue empty notifies the thread after it
   has unlocked the mutex: the notification may come at any later time, and it is lost if the
   thread does not wait then. The thread may also wake up for no reason.

   `Sound` is the invariant of all runs. `executor_order` says in which order jobs run and
   that no wake-up is lost; `executor_progress` is about runs without an end: each job is
   run, and `stop` returns. -/
namespace HotelPms
open Lib

/-- Where the thread is in `threadMain`. -/
inductive ExecutorThread (κ : Type) where
  /-- before the condition of the inner loop -/
  | checking
  /-- in `_jobsAvailable.wait(lock)` -/
  | waiting
  /-- in `job()` -/
  | running (job : κ)
  /-- `threadMain` has returned, and the thread is not joined. -/
  | returned

/-- What a call of `stop` that has set the flag does next. -/
inductive StopCall where
  /-- before `_jobsAvailable.notify_one()` -/
  | notify
  /-- before `_thread.join()`, or in it -/
  | join
deriving DecidableEq

/-- `κ` are the jobs. -/
structure ThreadedExecutor (κ : Type) where
  jobs : List κ := []
  /-- The constructor leaves it undetermined. -/
  quitFlag : Bool
  /-- `none` if `_thread` is not joinable -/
  thread : Option (ExecutorThread κ) := none
  /-- the calls of `spawn` before `_jobsAvailable.notify_one()` -/
  notifies : Nat := 0
  stopping : Option StopCall := none
  /-- history: the jobs that were pushed -/
  spawned : List κ := []
  /-- history: the jobs that have returned -/
  finished : List κ := []

namespace ThreadedExecutor

variable {κ : Type}

/-- `spawn`, up to `notify_one()` -/
def spawn (s : ThreadedExecutor κ) (job : κ) : ThreadedExecutor κ :=
  let wakeUpThread := s.jobs.isEmpty
  { s with
    jobs := s.jobs ++ [job]
    notifies := if wakeUpThread then s.notifies + 1 else s.notifies
    spawned := s.spawned ++ [job] }

/-- `_jobsAvailable.notify_one()` -/
def notifyOne (s : ThreadedExecutor κ) : ThreadedExecutor κ :=
  match s.thread with
  | some .waiting => { s with thread := some .checking }
  | _ => s

def start (s : ThreadedExecutor κ) : ThreadedExecutor κ :=
  { s with quitFlag := false, thread := some .checking }

/-- The section of `threadMain` that holds the mutex: to `wait`, to `return`, or with a job. -/
def takeJob (s : ThreadedExecutor κ) : ThreadedExecutor κ :=
  if s.quitFlag then { s with thread := some .returned }
  else
    match s.jobs with
    | [] => { s with thread := some .waiting }
    | job :: jobs => { s with jobs, thread := some (.running job) }

inductive Label (κ : Type) where
  | spawn (job : κ)
  /-- the notification of a call of `spawn` -/
  | notify
  /-- The thread wakes up for no reason. -/
  | wake
  | takeJob
  /-- A job returns. -/
  | finish
  | start
  | stop
  /-- the notification of `stop` -/
  | stopNotify
  | join

inductive Step : ThreadedExecutor κ → Label κ → ThreadedExecutor κ → Prop where
  | spawn (s : ThreadedExecutor κ) (job : κ) : Step s (.spawn job) (s.spawn job)
  | notify (s : ThreadedExecutor κ) (calls : 0 < s.notifies) :
    Step s .notify { s.notifyOne with notifies := s.notifies - 1 }
  | wake (s : ThreadedExecutor κ) (waiting : s.thread = some .waiting) :
    Step s .wake { s with thread := some .checking }
  | takeJob (s : ThreadedExecutor κ) (checking : s.thread = some .checking) : Step s .takeJob s.takeJob
  | finish (s : ThreadedExecutor κ) (job : κ) (running : s.thread = some (.running job)) :
    Step s .finish { s with thread := some .checking, finished := s.finished ++ [job] }
  | start (s : ThreadedExecutor κ) (alone : s.stopping = none) (joinable : s.thread = none) :
    Step s .start s.start
  | stop (s : ThreadedExecutor κ) (alone : s.stopping = none) (joinable : s.thread ≠ none) :
    Step s .stop { s with quitFlag := true, stopping := some .notify }
  | stopNotify (s : ThreadedExecutor κ) (calls : s.stopping = some .notify) :
    Step s .stopNotify { s.notifyOne with stopping := some .join }
  | join (s : ThreadedExecutor κ) (calls : s.stopping = some .join) (returned : s.thread = some .returned) :
    Step s .join { s with thread := none, stopping := none }

/-- Some step. -/
def Next (s s' : ThreadedExecutor κ) : Prop := ∃ label, Step s label s'

/-- A new executor. -/
def New (s : ThreadedExecutor κ) : Prop := ∃ quitFlag, s = { quitFlag }

def Reached (s : ThreadedExecutor κ) : Prop := Reachable New Next s

/-- The job that runs. -/
def running (s : ThreadedExecutor κ) : List κ :=
  match s.thread with
  | some (.running job) => [job]
  | _ => []

/-- The jobs that the thread has taken from the queue. -/
def begun (s : ThreadedExecutor κ) : List κ := s.finished ++ s.running

structure Sound (s : ThreadedExecutor κ) : Prop where
  /-- Jobs are taken in the order in which they were pushed. -/
  order : s.spawned = s.begun ++ s.jobs
  /-- If the thread waits although there is a job, it will be notified. -/
  awake : s.thread = some .waiting → s.jobs ≠ [] → 0 < s.notifies
  /-- The flag is set of a thread while `stop` is on its way. -/
  flag : s.thread ≠ none → (s.quitFlag = true ↔ s.stopping ≠ none)
  thread : s.stopping ≠ none → s.thread ≠ none
  returned : s.thread = some .returned → s.quitFlag = true
  /-- The notification of `stop` is not lost. -/
  noticed : s.stopping = some .join → s.thread ≠ some .waiting

variable {s s' t : ThreadedExecutor κ} {label : Label κ} {k : Nat}

theorem sound_new (h : New s) : Sound s := by
  obtain ⟨quitFlag, rfl⟩ := h
  constructor <;> simp [begun, running]

theorem notifyOne_eq_or (s : ThreadedExecutor κ) :
    (s.thread = some .waiting ∧ s.notifyOne = { s with thread := some .checking }) ∨
      (s.thread ≠ some .waiting ∧ s.notifyOne = s) := by
  unfold notifyOne
  split
  · exact Or.inl ⟨by assumption, rfl⟩
  · exact Or.inr ⟨by assumption, rfl⟩

theorem Sound.of_checking (h : Sound s) (hwaiting : s.thread = some .waiting)
    (hthread : s'.thread = some .checking) (hjobs : s'.jobs = s.jobs) (hflag : s'.quitFlag = s.quitFlag)
    (hstopping : s'.stopping ≠ none ↔ s.stopping ≠ none) (hspawned : s'.spawned = s.spawned)
    (hfinished : s'.finished = s.finished) : Sound s' where
  order := by
    have horder := h.order
    simp only [begun, running, hwaiting] at horder
    simp only [begun, running, hthread, hspawned, hfinished, hjobs]
    exact horder
  awake := by simp [hthread]
  flag _ := by
    rw [hflag, hstopping]
    exact h.flag (by simp [hwaiting])
  thread _ := by simp [hthread]
  returned := by simp [hthread]
  noticed _ := by simp [hthread]

theorem sound_spawn (h : Sound s) (job : κ) : Sound (s.spawn job) where
  order := by
    show s.spawned ++ [job] = s.begun ++ (s.jobs ++ [job])
    rw [h.order, List.append_assoc]
  awake hwaiting _ := by
    by_cases hjobs : s.jobs = []
    · simp [spawn, hjobs]
    · simpa [spawn, hjobs] using h.awake hwaiting hjobs
  flag := h.flag
  thread := h.thread
  returned := h.returned
  noticed := h.noticed

theorem sound_notify (h : Sound s) : Sound { s.notifyOne with notifies := s.notifies - 1 } := by
  rcases s.notifyOne_eq_or with ⟨hwaiting, heq⟩ | ⟨hwaiting, heq⟩
  · rw [heq]
    exact h.of_checking hwaiting rfl rfl rfl Iff.rfl rfl rfl
  · rw [heq]
    exact ⟨h.order, fun hwaits => absurd hwaits hwaiting, h.flag, h.thread, h.returned, h.noticed⟩

theorem sound_takeJob (h : Sound s) (hchecking : s.thread = some .checking) : Sound s.takeJob := by
  have horder := h.order
  have hflag := h.flag (by simp [hchecking])
  simp only [begun, running, hchecking, List.append_nil] at horder
  unfold takeJob
  split
  next hquit =>
    refine ⟨?_, by simp, fun _ => hflag, by simp, fun _ => hquit, by simp⟩
    simpa [begun, running] using horder
  next hquit =>
    have hstopping : s.stopping = none := by
      by_contra hstopping
      exact hquit (hflag.2 hstopping)
    split
    next hjobs =>
      refine ⟨?_, fun _ hjobs' => absurd hjobs hjobs', fun _ => hflag, by simp, by simp, by simp [hstopping]⟩
      simpa [begun, running, hjobs] using horder
    next job jobs hjobs =>
      refine ⟨?_, by simp, fun _ => hflag, by simp, by simp, by simp⟩
      simpa [begun, running, hjobs] using horder

theorem sound_finish (h : Sound s) {job : κ} (hrunning : s.thread = some (.running job)) :
    Sound { s with thread := some .checking, finished := s.finished ++ [job] } := by
  have horder := h.order
  simp only [begun, running, hrunning] at horder
  refine ⟨?_, by simp, fun _ => h.flag (by simp [hrunning]), by simp, by simp, by simp⟩
  simpa [begun, running] using horder

theorem sound_step (h : Sound s) (hs : Step s label s') : Sound s' := by
  cases hs with
  | spawn job => exact sound_spawn h job
  | notify calls => exact sound_notify h
  | wake waiting => exact h.of_checking waiting rfl rfl rfl Iff.rfl rfl rfl
  | takeJob checking => exact sound_takeJob h checking
  | finish job running => exact sound_finish h running
  | start alone joinable =>
    have horder := h.order
    simp only [begun, running, joinable] at horder
    refine ⟨?_, by simp [start], by simp [start, alone], by simp [start], by simp [start], by simp [start]⟩
    simpa [begun, running, start] using horder
  | stop alone joinable =>
    exact ⟨h.order, h.awake, by simp, fun _ => joinable, fun _ => rfl, by simp⟩
  | stopNotify calls =>
    rcases s.notifyOne_eq_or with ⟨hwaiting, heq⟩ | ⟨hwaiting, heq⟩
    · rw [heq]
      exact h.of_checking hwaiting rfl rfl rfl (by simp [calls]) rfl rfl
    · rw [heq]
      have hthread := h.thread (by simp [calls])
      exact ⟨h.order, h.awake, fun _ => by simp [(h.flag hthread).2 (by simp [calls])],
        fun _ => hthread, h.returned, fun _ => hwaiting⟩
  | join calls returned =>
    have horder := h.order
    simp only [begun, running, returned] at horder
    refine ⟨?_, by simp, by simp, by simp, by simp, by simp⟩
    simpa [begun, running] using horder

theorem reached_sound (h : Reached s) : Sound s := by
  refine Reachable.invariant (I := Sound) (fun _ => sound_new) ?_ h
  rintro s s' hs ⟨label, hstep⟩
  exact sound_step hs hstep

/-! ## The order of the jobs -/

/-- Jobs that have returned, and jobs that were pushed, stay where they are. -/
theorem history_step (hs : Step s label s') : s.finished <+: s'.finished ∧ s.spawned <+: s'.spawned := by
  cases hs with
  | spawn job => exact ⟨List.prefix_rfl, List.prefix_append _ _⟩
  | notify calls | stopNotify calls =>
    rcases s.notifyOne_eq_or with ⟨-, heq⟩ | ⟨-, heq⟩ <;> rw [heq] <;>
      exact ⟨List.prefix_rfl, List.prefix_rfl⟩
  | takeJob checking =>
    unfold takeJob
    split
    · exact ⟨List.prefix_rfl, List.prefix_rfl⟩
    · split <;> exact ⟨List.prefix_rfl, List.prefix_rfl⟩
  | finish job running => exact ⟨List.prefix_append _ _, List.prefix_rfl⟩
  | wake | start | stop | join => exact ⟨List.prefix_rfl, List.prefix_rfl⟩

theorem history_run (hrun : Relation.ReflTransGen Next s t) :
    s.finished <+: t.finished ∧ s.spawned <+: t.spawned := by
  induction hrun with
  | refl => exact ⟨List.prefix_rfl, List.prefix_rfl⟩
  | tail _ hs ih =>
    obtain ⟨label, hstep⟩ := hs
    obtain ⟨hfinished, hspawned⟩ := history_step hstep
    exact ⟨ih.1.trans hfinished, ih.2.trans hspawned⟩

/-- Once the flag is set no job is taken, and the flag stays set. -/
theorem begun_step (hs : Step s label s') (hquit : s.quitFlag = true) (hlabel : label ≠ .start) :
    s'.begun = s.begun ∧ s'.quitFlag = true := by
  cases hs with
  | notify calls | stopNotify calls =>
    rcases s.notifyOne_eq_or with ⟨hwaiting, heq⟩ | ⟨-, heq⟩
    · simp [heq, begun, running, hwaiting, hquit]
    · simp [heq, begun, running, hquit]
  | wake waiting => simp [begun, running, waiting, hquit]
  | takeJob checking => simp [takeJob, begun, running, checking, hquit]
  | finish job running => simp [begun, ThreadedExecutor.running, running, hquit]
  | join calls returned => simp [begun, running, returned, hquit]
  | spawn | stop => exact ⟨rfl, by first | exact hquit | rfl⟩
  | start => exact absurd rfl hlabel

theorem begun_run {labels : List (Label κ)} (hrun : Trace Step s labels t) (hquit : s.quitFlag = true)
    (hlabels : .start ∉ labels) : t.begun = s.begun := by
  induction hrun with
  | nil => rfl
  | cons first _ ih =>
    rw [List.mem_cons, not_or] at hlabels
    obtain ⟨hlabel, hrest⟩ := hlabels
    obtain ⟨hbegun, hquit'⟩ := begun_step first hquit (Ne.symm hlabel)
    exact (ih hquit' hrest).trans hbegun

/-- In every run of any number of threads: each job that was pushed is either finished, or
    the one that runs, or still in the queue, and jobs are taken and finished in the order in
    which they were pushed, also when the executor was stopped and started again between.
    If the thread waits and no call is on its way, all jobs are finished: no notification is
    lost. That of `stop` is not lost either. Once `stop` has set the flag no job is taken
    until the next `start`. -/
theorem executor_order (h : Reached s) :
    s.spawned = s.finished ++ s.running ++ s.jobs ∧
    (∀ t, Relation.ReflTransGen Next s t → s.finished <+: t.finished ∧ s.spawned <+: t.spawned) ∧
    (s.thread = some .waiting → s.notifies = 0 → s.stopping = none → s.finished = s.spawned) ∧
    (s.stopping = some .join → s.thread ≠ some .waiting) ∧
    (s.stopping ≠ none → ∀ labels t, Trace Step s labels t → .start ∉ labels →
      t.finished ++ t.running = s.finished ++ s.running) := by
  have hsound := reached_sound h
  refine ⟨hsound.order, fun t => history_run, fun hwaiting hnotifies _ => ?_, hsound.noticed,
    fun hstopping labels t hrun hlabels => ?_⟩
  · have hjobs : s.jobs = [] := by
      by_contra hjobs
      have hpos := hsound.awake hwaiting hjobs
      omega
    have horder := hsound.order
    simp only [begun, running, hwaiting, hjobs, List.append_nil] at horder
    exact horder.symm
  · exact begun_run hrun ((hsound.flag (hsound.thread hstopping)).2 hstopping) hlabels

/-- The executor is stopped while it runs a job, with a job in the queue. -/
def stoppedEarly : ThreadedExecutor Nat where
  jobs := [2]
  quitFlag := true
  thread := some (.running 1)
  notifies := 1
  stopping := some .notify
  spawned := [1, 2]

/-- The job in the queue stays there. -/
theorem executor_order_stopped : ∃ t : ThreadedExecutor Nat, Reached stoppedEarly ∧
    Trace Step stoppedEarly [.stopNotify, .finish, .takeJob, .join] t ∧ t.thread = none ∧
    t.spawned = [1, 2] ∧ t.finished ++ t.running = [1] := by
  have h₀ : Reached ({ quitFlag := true } : ThreadedExecutor Nat) := .init ⟨true, rfl⟩
  have h₁ := h₀.step ⟨_, .spawn _ 1⟩
  have h₂ := h₁.step ⟨_, .start _ rfl rfl⟩
  have h₃ := h₂.step ⟨_, .notify _ Nat.one_pos⟩
  have h₄ := h₃.step ⟨_, .takeJob _ rfl⟩
  have h₅ := h₄.step ⟨_, .spawn _ 2⟩
  have h₆ : Reached stoppedEarly := h₅.step ⟨_, .stop _ rfl (Option.some_ne_none _)⟩
  obtain ⟨-, -, -, -, hstopped⟩ := executor_order h₆
  have hrun : Trace Step stoppedEarly [.stopNotify, .finish, .takeJob, .join] _ :=
    .cons (.stopNotify _ rfl) (.cons (.finish _ 1 rfl) (.cons (.takeJob _ rfl) (.single (.join _ rfl rfl))))
  exact ⟨_, h₆, hrun, rfl, rfl, hstopped (Option.some_ne_none _) _ _ hrun (by simp)⟩

/-! ## Progress -/

/-- How far the thread is from running a job. -/
def distance (s : ThreadedExecutor κ) : Nat :=
  match s.thread with
  | some .waiting => 2
  | some .checking => 1
  | _ => 0

/-- What brings the thread on. -/
def threadLabel (s : ThreadedExecutor κ) : Label κ :=
  match s.thread with
  | some .waiting => .notify
  | some .checking => .takeJob
  | some (.running _) => .finish
  | _ => .join

theorem threadLabel_eq_notify (h : s.threadLabel = .notify) : s.thread = some .waiting := by
  unfold threadLabel at h
  split at h
  · assumption
  all_goals cases h

theorem threadLabel_ne_spawn (job : κ) : s.threadLabel ≠ .spawn job := by
  unfold threadLabel
  split <;> simp

/-- A job was pushed to a running executor, and has not returned. -/
structure Pending (k : Nat) (s : ThreadedExecutor κ) : Prop where
  thread : s.thread ≠ none
  stopping : s.stopping = none
  spawned : k < s.spawned.length
  finished : s.finished.length ≤ k

theorem Pending.jobs (hp : Pending k s) (h : Sound s) (hrunning : s.running = []) : s.jobs ≠ [] := by
  intro hjobs
  have hspawned := hp.spawned
  rw [h.order, begun, hrunning, hjobs, List.append_nil, List.append_nil] at hspawned
  exact absurd hp.finished (Nat.not_le.2 hspawned)

theorem Pending.quitFlag (hp : Pending k s) (h : Sound s) : s.quitFlag = false := by
  by_contra hquit
  exact (h.flag hp.thread).1 (by simpa using hquit) hp.stopping

/-- How far the executor is from finishing the job: the jobs before it count, and the thread. -/
def rank (k : Nat) (s : ThreadedExecutor κ) : Nat := 3 * (k - s.finished.length) + s.distance

theorem takeJob_cons {job : κ} {jobs : List κ} (hquit : s.quitFlag = false) (hjobs : s.jobs = job :: jobs) :
    s.takeJob = { s with jobs, thread := some (.running job) } := by
  simp [takeJob, hquit, hjobs]

/-- A step leaves what brings the thread on as it is, or brings it on. -/
theorem Pending.step (hp : Pending k s) (h : Sound s) (hs : Step s label s') :
    (k < s'.finished.length ∨ s'.stopping ≠ none) ∨
      Pending k s' ∧ (s'.rank k < s.rank k ∨
        s'.rank k = s.rank k ∧ s'.threadLabel = s.threadLabel ∧ label ≠ s.threadLabel) := by
  obtain ⟨hthread, hstopping, hspawned, hfinished⟩ := hp
  cases hs with
  | spawn job =>
    refine Or.inr ⟨⟨hthread, hstopping, ?_, hfinished⟩, Or.inr ⟨rfl, rfl, (threadLabel_ne_spawn job).symm⟩⟩
    exact lt_of_lt_of_le hspawned (List.prefix_append _ _).length_le
  | notify calls =>
    rcases s.notifyOne_eq_or with ⟨hwaiting, heq⟩ | ⟨hwaiting, heq⟩
    · exact Or.inr ⟨⟨by simp [heq], by simpa [heq], by simpa [heq], by simpa [heq]⟩,
        Or.inl (by simp [rank, distance, heq, hwaiting])⟩
    · exact Or.inr ⟨⟨by simpa [heq], by simpa [heq], by simpa [heq], by simpa [heq]⟩,
        Or.inr ⟨by simp [rank, distance, heq], by simp [threadLabel, heq],
          fun hlabel => hwaiting (threadLabel_eq_notify hlabel.symm)⟩⟩
  | wake waiting =>
    exact Or.inr ⟨⟨by simp, hstopping, hspawned, hfinished⟩,
      Or.inl (by simp [rank, distance, waiting])⟩
  | takeJob checking =>
    have hp : Pending k s := ⟨hthread, hstopping, hspawned, hfinished⟩
    obtain ⟨job, jobs, hjobs⟩ := List.exists_cons_of_ne_nil (hp.jobs h (by simp [running, checking]))
    rw [takeJob_cons (hp.quitFlag h) hjobs]
    exact Or.inr ⟨⟨by simp, hstopping, hspawned, hfinished⟩,
      Or.inl (by simp [rank, distance, checking])⟩
  | finish job running =>
    by_cases hlast : s.finished.length = k
    · exact Or.inl (Or.inl (by simp [hlast]))
    · have hlt := lt_of_le_of_ne hfinished hlast
      refine Or.inr ⟨⟨by simp, hstopping, hspawned, by simpa using hlt⟩, Or.inl ?_⟩
      simp only [rank, distance, running, List.length_append, List.length_singleton]
      omega
  | start alone joinable => exact absurd joinable hthread
  | stop alone joinable => exact Or.inl (Or.inr (by simp))
  | stopNotify calls => simp [hstopping] at calls
  | join calls returned => simp [hstopping] at calls

theorem Pending.enabled (hp : Pending k s) (h : Sound s) : ∃ s', Step s s.threadLabel s' := by
  unfold threadLabel
  split
  next hwaiting => exact ⟨_, .notify s (h.awake hwaiting (hp.jobs h (by simp [running, hwaiting])))⟩
  next hchecking => exact ⟨_, .takeJob s hchecking⟩
  next job hrunning => exact ⟨_, .finish s job hrunning⟩
  next hwaiting hchecking hrunning =>
    -- the thread has not returned, because the flag is not set
    cases hthread : s.thread with
    | none => exact absurd hthread hp.thread
    | some thread =>
      cases thread with
      | returned =>
        have hquit := h.returned hthread
        rw [hp.quitFlag h] at hquit
        cases hquit
      | waiting => exact absurd hthread hwaiting
      | checking => exact absurd hthread hchecking
      | running job => exact absurd hthread (hrunning job)

/-! ### Stopping -/

/-- `stop` is on its way, and the thread has taken the given jobs. -/
structure Stopping (begun : List κ) (s : ThreadedExecutor κ) : Prop where
  stopping : s.stopping ≠ none
  begun : s.begun = begun

/-- `stop` has returned, and just the given jobs are finished. -/
structure Stopped (begun : List κ) (s : ThreadedExecutor κ) : Prop where
  stopping : s.stopping = none
  thread : s.thread = none
  finished : s.finished = begun

def stopLabel (s : ThreadedExecutor κ) : Label κ :=
  match s.stopping with
  | some .notify => .stopNotify
  | _ => s.threadLabel

/-- How far `stop` is from returning: its own notification counts, and the thread. -/
def stopRank (s : ThreadedExecutor κ) : Nat :=
  (if s.stopping = some .notify then 4 else 0) +
    match s.thread with
    | some .waiting => 3
    | some (.running _) => 2
    | some .checking => 1
    | _ => 0

theorem stopLabel_eq_threadLabel (h : s.stopping ≠ some .notify) : s.stopLabel = s.threadLabel := by
  unfold stopLabel
  split
  · contradiction
  · rfl

theorem stopLabel_eq_stopNotify (h : s.stopping = some .notify) : s.stopLabel = .stopNotify := by
  simp [stopLabel, h]

variable {begun : List κ}

theorem Stopping.quitFlag (hp : Stopping begun s) (h : Sound s) : s.quitFlag = true :=
  (h.flag (h.thread hp.stopping)).2 hp.stopping

/-- A step leaves what brings `stop` on as it is, or brings it on. -/
theorem Stopping.step (hp : Stopping begun s) (h : Sound s) (hs : Step s label s') :
    Stopped begun s' ∨ Stopping begun s' ∧ (s'.stopRank < s.stopRank ∨
      s'.stopRank = s.stopRank ∧ s'.stopLabel = s.stopLabel ∧ label ≠ s.stopLabel) := by
  have hthread := h.thread hp.stopping
  have hquit := hp.quitFlag h
  have hbegun : label ≠ .start → s'.begun = begun := fun hlabel =>
    (begun_step hs hquit hlabel).1.trans hp.begun
  have hstopping := hp.stopping
  cases hs with
  | spawn job =>
    refine Or.inr ⟨⟨hstopping, hbegun (by simp)⟩, Or.inr ⟨rfl, rfl, fun hlabel => ?_⟩⟩
    unfold stopLabel at hlabel
    split at hlabel
    · cases hlabel
    · exact threadLabel_ne_spawn job hlabel.symm
  | notify calls =>
    rcases s.notifyOne_eq_or with ⟨hwaiting, heq⟩ | ⟨hwaiting, heq⟩
    · refine Or.inr ⟨⟨by simpa [heq], hbegun (by simp)⟩, Or.inl ?_⟩
      simp [heq, stopRank, hwaiting]
    · refine Or.inr ⟨⟨by simpa [heq], hbegun (by simp)⟩, Or.inr ⟨by simp [heq, stopRank],
        by simp [heq, stopLabel, threadLabel], fun hlabel => ?_⟩⟩
      unfold stopLabel at hlabel
      split at hlabel
      · cases hlabel
      · exact hwaiting (threadLabel_eq_notify hlabel.symm)
  | wake waiting =>
    exact Or.inr ⟨⟨hstopping, hbegun (by simp)⟩, Or.inl (by simp [stopRank, waiting])⟩
  | takeJob checking =>
    have htake : s.takeJob = { s with thread := some .returned } := by simp [takeJob, hquit]
    rw [htake] at hbegun ⊢
    exact Or.inr ⟨⟨hstopping, hbegun (by simp)⟩, Or.inl (by simp [stopRank, checking])⟩
  | finish job running =>
    exact Or.inr ⟨⟨hstopping, hbegun (by simp)⟩, Or.inl (by simp [stopRank, running])⟩
  | start alone joinable => exact absurd joinable hthread
  | stop alone joinable => exact absurd alone hstopping
  | stopNotify calls =>
    refine Or.inr ⟨⟨by simp, hbegun (by simp)⟩, Or.inl ?_⟩
    rcases s.notifyOne_eq_or with ⟨hwaiting, heq⟩ | ⟨-, heq⟩
    · simp [heq, stopRank, calls, hwaiting]
    · simp [heq, stopRank, calls]
  | join calls returned =>
    have hdone := hbegun (by simp)
    simp only [ThreadedExecutor.begun, running, List.append_nil] at hdone
    exact Or.inl ⟨rfl, rfl, hdone⟩

theorem Stopping.enabled (hp : Stopping begun s) (h : Sound s) : ∃ s', Step s s.stopLabel s' := by
  cases hstopping : s.stopping with
  | none => exact absurd hstopping hp.stopping
  | some call =>
    cases call with
    | notify =>
      rw [stopLabel_eq_stopNotify hstopping]
      exact ⟨_, .stopNotify s hstopping⟩
    | join =>
      rw [stopLabel_eq_threadLabel (by simp [hstopping])]
      cases hthread : s.thread with
      | none => exact absurd hthread (h.thread hp.stopping)
      | some thread =>
        cases thread with
        | waiting => exact absurd hthread (h.noticed hstopping)
        | checking => exact ⟨_, by simpa [threadLabel, hthread] using Step.takeJob s hthread⟩
        | running job => exact ⟨_, by simpa [threadLabel, hthread] using Step.finish s job hthread⟩
        | returned => exact ⟨_, by simpa [threadLabel, hthread] using Step.join s hstopping hthread⟩

/-- What the threads, the jobs and the standard library are trusted with: a thread that can
    go on does, and a job returns. -/
def Label.isFair : Label κ → Bool
  | .notify | .takeJob | .finish | .stopNotify | .join => true
  | .spawn _ | .wake | .start | .stop => false

theorem isFair_threadLabel (s : ThreadedExecutor κ) : s.threadLabel.isFair = true := by
  unfold threadLabel
  split <;> rfl

theorem isFair_stopLabel (s : ThreadedExecutor κ) : s.stopLabel.isFair = true := by
  unfold stopLabel
  split
  · rfl
  · exact isFair_threadLabel s

/-- In every run without an end in which threads that can go on do so and jobs return,
    whatever wakes the thread up and however many jobs are pushed meanwhile: each job that was
    pushed to a running executor returns, unless `stop` is called before; and each call of
    `stop` returns, when just the jobs that had been taken from the queue are finished. -/
theorem executor_progress (run : InfiniteRun (@New κ) Next)
    (fair : ∀ label : Label κ, label.isFair = true → run.WeaklyFair fun s s' => Step s label s') :
    (∀ k, run.LeadsTo (fun s => s.thread ≠ none ∧ k < s.spawned.length)
      fun s => k < s.finished.length ∨ s.stopping ≠ none) ∧
    (∀ begun, run.LeadsTo (fun s => s.stopping ≠ none ∧ s.finished ++ s.running = begun)
      fun s => s.stopping = none ∧ s.thread = none ∧ s.finished = begun) := by
  refine ⟨fun k => ?_, fun begun => ?_⟩
  · have hpending : run.LeadsTo (Pending k) fun s => k < s.finished.length ∨ s.stopping ≠ none :=
      .of_labels fair (rank k) threadLabel isFair_threadLabel
        (fun s label s' hs hp => hp.step (reached_sound hs)) (fun s hs hp => hp.enabled (reached_sound hs))
    rintro n ⟨hthread, hspawned⟩
    by_cases hdone : k < (run.state n).finished.length ∨ (run.state n).stopping ≠ none
    · exact ⟨n, le_rfl, hdone⟩
    · rw [not_or, not_lt, not_not] at hdone
      exact hpending n ⟨hthread, hdone.2, hspawned, hdone.1⟩
  · have hstopping : run.LeadsTo (Stopping begun) (Stopped begun) :=
      .of_labels fair stopRank stopLabel isFair_stopLabel
        (fun s label s' hs hp => hp.step (reached_sound hs)) (fun s hs hp => hp.enabled (reached_sound hs))
    rintro n ⟨hcalled, hbegun⟩
    obtain ⟨m, hnm, hm⟩ := hstopping n ⟨hcalled, hbegun⟩
    exact ⟨m, hnm, hm.stopping, hm.thread, hm.finished⟩

theorem weaklyFair_of_rests {run : InfiniteRun (@New κ) Next} {n : Nat} (h : run.Rests n s)
    (hthread : s.thread = none) (hnotifies : s.notifies = 0) (hstopping : s.stopping = none)
    (label : Label κ) (hfair : label.isFair = true) : run.WeaklyFair fun s s' => Step s label s' := by
  refine h.weaklyFair fun s' hs => ?_
  cases hs with
  | spawn | wake | start | stop => cases hfair
  | notify calls => exact absurd calls (by simp [hnotifies])
  | takeJob checking => simp [hthread] at checking
  | finish job running => simp [hthread] at running
  | stopNotify calls | join calls => simp [hstopping] at calls

/-- A job was pushed, and the executor was started. -/
def startedWithJob : ThreadedExecutor Nat where
  jobs := [7]
  quitFlag := false
  thread := some .checking
  notifies := 1
  spawned := [7]

/-- It is stopped while the job runs. -/
def stoppedWithJob : ThreadedExecutor Nat where
  quitFlag := true
  thread := some (.running 7)
  stopping := some .notify
  spawned := [7]

theorem executor_progress_stop : ∃ (run : InfiniteRun (@New Nat) Next) (n n' : Nat),
    run.state n = startedWithJob ∧
      (∃ m ≥ n, 0 < (run.state m).finished.length ∨ (run.state m).stopping ≠ none) ∧
    run.state n' = stoppedWithJob ∧
      ∃ m ≥ n', (run.state m).stopping = none ∧ (run.state m).thread = none ∧
        (run.state m).finished = [7] := by
  have h₀ : Reached ({ quitFlag := true } : ThreadedExecutor Nat) := .init ⟨true, rfl⟩
  have h₁ := h₀.step ⟨_, .spawn _ 7⟩
  have h₂ : Reached startedWithJob := h₁.step ⟨_, .start _ rfl rfl⟩
  obtain ⟨run₂, n, hn⟩ := InfiniteRun.exists_rests h₂
  have r₃ : Relation.ReflTransGen Next startedWithJob _ := .single ⟨_, .notify _ Nat.one_pos⟩
  have r₄ := r₃.tail ⟨_, .takeJob _ rfl⟩
  have r₅ : Relation.ReflTransGen Next startedWithJob stoppedWithJob :=
    r₄.tail ⟨_, .stop _ rfl (Option.some_ne_none _)⟩
  obtain ⟨run₅, n', hsame, hnn', hn'⟩ := hn.goOn r₅
  have r₆ : Relation.ReflTransGen Next stoppedWithJob _ := .single ⟨_, .stopNotify _ rfl⟩
  have r₇ := r₆.tail ⟨_, .finish _ 7 rfl⟩
  have r₈ := r₇.tail ⟨_, .takeJob _ rfl⟩
  have r₉ := r₈.tail ⟨_, .join _ rfl rfl⟩
  obtain ⟨run, m, hsame', -, hm⟩ := hn'.goOn r₉
  obtain ⟨hjobs, hstop⟩ := executor_progress run (weaklyFair_of_rests hm rfl rfl rfl)
  have hfirst : run.state n = startedWithJob :=
    (hsame' n hnn').trans ((hsame n le_rfl).trans (hn n le_rfl))
  have hsecond : run.state n' = stoppedWithJob := (hsame' n' le_rfl).trans (hn' n' le_rfl)
  exact ⟨run, n, n', hfirst, hjobs 0 n (by simp [hfirst, startedWithJob]), hsecond,
    hstop [7] n' (by simp [hsecond, stoppedWithJob, running])⟩

end ThreadedExecutor

end HotelPms
