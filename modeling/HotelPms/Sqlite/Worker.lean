import HotelPms.Lib.Run
import HotelPms.Sqlite.History

/- The backend under any interleaving of its clients with its worker thread.

   Clients queue batches, create and remove streams and apply the changes that
   are queued for them; each of these calls is one step. The worker goes around
   the loop of `threadMain`: it takes the queued batches, makes the new streams
   active, initializes them one by one, and executes the batches it took. The
   state carries its history: the batches queued and executed, and the changes
   queued and delivered.

   What is proved, of every reachable state:
     1. executed batches, batches taken and batches waiting are together the
        batches queued, in order (`Sound.order`), and the storage is what the
        executed ones made of it, each a transaction (`Sound.history`);
     2. a stream that is not removed waits, is about to be initialized, or was
        initialized from the storage after some number of batches and got every
        change of the batches since (`StreamSound`);
     3. what was delivered and what is queued for it are together what it was
        ever sent (`Sound.delivered`).
   `stream_linearization` is all of it. -/
namespace HotelPms
open Lib SqliteStorage DataStreamManager SqliteBackend

/-- Where the worker is in the loop of `threadMain`. -/
inductive Phase where
  /-- at the top of the loop, or waiting for work -/
  | top
  /-- the queue is swapped -/
  | swapped
  /-- the new streams are active, and are being initialized -/
  | initializing
  | processing
  deriving DecidableEq

structure Backend where
  storage : Connection Database
  operationsQueue : List Operations := []
  uninitializedStreams : List DataStream := []
  activeStreams : List DataStream := []
  nextStreamId : Int := 1
  /-- `ChangeQueue::_changeList` -/
  changeList : List DataStreamDifferential := []
  /-- `ChangeQueue::_dataStreams` -/
  dataStreams : List DataStream := []
  /-- the streams whose observer is null -/
  disconnected : List Int := []
  phase : Phase := .top
  /-- local variables of `threadMain` and `DataStreamManager::initialize` -/
  newTasks : List Operations := []
  newStreams : List DataStream := []
  /-- history -/
  queued : List Operations := []
  executed : List BatchRecord := []
  created : List DataStream := []
  published : List DataStreamDifferential := []
  delivered : List DataStreamDifferential := []

namespace Backend

/-- `DataStreamManager::initialize` of one stream: what is put on the change queue. -/
def initialChanges (build : Build) (boost : BoostDate) (stream : DataStream) (db : Database) :
    Except Fault (List DataStreamDifferential) := do
  let changes ← (match findHandler stream with
    | some streamHandler => streamHandler.initializeStream build boost stream db
    | none => .ok [])
  return (changes ++ [DataStreamChange.initialized]).map fun change => ⟨stream.streamId, change⟩

/-- `ChangeQueue::applyStreamChanges`: the streams that are left, and the changes
    that reach an observer. -/
def applyStreamChanges (s : Backend) : List DataStream × List DataStreamDifferential :=
  let dataStreams := s.dataStreams.filter fun stream => !s.disconnected.contains stream.streamId
  (dataStreams, s.changeList.filter fun change =>
    dataStreams.any fun stream => stream.streamId == change.streamId)

/-- One call of a client, or one step of the worker. A step that would stop on an
    assertion or an exception is no step: the process ends there. -/
inductive Step (build : Build) (boost : BoostDate) : Backend → Backend → Prop where
  | queueOperations (s : Backend) (operations : Operations) :
    Step build boost s { s with
      operationsQueue := s.operationsQueue ++ [operations], queued := s.queued ++ [operations] }
  | createStream (s : Backend) (streamType : StreamableType) (endpoint : String) (options : Json)
      (stream : DataStream)
      (new : stream = { streamId := s.nextStreamId, streamType, endpoint, options }) :
    Step build boost s { s with
      nextStreamId := s.nextStreamId + 1
      dataStreams := s.dataStreams ++ [stream]
      uninitializedStreams := s.uninitializedStreams ++ [stream]
      created := s.created ++ [stream] }
  | removeStream (s : Backend) (stream : DataStream) (created : stream ∈ s.created) :
    Step build boost s { s with
      disconnected := stream.streamId :: s.disconnected
      uninitializedStreams := s.uninitializedStreams.filter (·.streamId != stream.streamId)
      activeStreams := s.activeStreams.filter (·.streamId != stream.streamId) }
  | applyStreamChanges (s : Backend) :
    Step build boost s { s with
      dataStreams := s.applyStreamChanges.1
      changeList := []
      delivered := s.delivered ++ s.applyStreamChanges.2 }
  | swap (s : Backend) (phase : s.phase = .top) :
    Step build boost s { s with
      phase := .swapped, newTasks := s.operationsQueue, operationsQueue := [] }
  | collect (s : Backend) (phase : s.phase = .swapped) :
    Step build boost s { s with
      phase := .initializing
      newStreams := s.uninitializedStreams
      activeStreams := s.activeStreams ++ s.uninitializedStreams
      uninitializedStreams := [] }
  | initializeOne (s : Backend) (phase : s.phase = .initializing) (stream : DataStream)
      (rest : List DataStream) (next : s.newStreams = stream :: rest)
      (changes : List DataStreamDifferential)
      (loaded : initialChanges build boost stream s.storage.current = .ok changes) :
    Step build boost s { s with
      newStreams := rest
      changeList := s.changeList ++ changes
      published := s.published ++ changes }
  | process (s : Backend) (phase : s.phase = .initializing) (done : s.newStreams = []) :
    Step build boost s { s with phase := .processing }
  | executeTask (s : Backend) (phase : s.phase = .processing) (operations : Operations)
      (rest : List Operations) (next : s.newTasks = operations :: rest) (out : TaskOutcome)
      (changes : List DataStreamDifferential)
      (executed : processTask build boost s.activeStreams s.storage s.changeList operations = .ok out)
      (added : out.changeList = s.changeList ++ changes) :
    Step build boost s { s with
      newTasks := rest
      storage := out.storage
      changeList := out.changeList
      published := s.published ++ changes
      executed := s.executed ++ [{ before := s.storage.current, operations, results := out.results,
                                   committed := out.committed, after := out.storage.current }] }
  | loop (s : Backend) (phase : s.phase = .processing) (done : s.newTasks = []) :
    Step build boost s { s with phase := .top }

/-- The steps of the worker in which it only goes on in the loop of `threadMain`. -/
inductive Turn : Backend → Backend → Prop where
  | swap (s : Backend) (phase : s.phase = .top) :
    Turn s { s with phase := .swapped, newTasks := s.operationsQueue, operationsQueue := [] }
  | collect (s : Backend) (phase : s.phase = .swapped) :
    Turn s { s with
      phase := .initializing
      newStreams := s.uninitializedStreams
      activeStreams := s.activeStreams ++ s.uninitializedStreams
      uninitializedStreams := [] }
  | process (s : Backend) (phase : s.phase = .initializing) (done : s.newStreams = []) :
    Turn s { s with phase := .processing }
  | loop (s : Backend) (phase : s.phase = .processing) (done : s.newTasks = []) :
    Turn s { s with phase := .top }

theorem Turn.unchanged {s s' : Backend} (h : Turn s s') :
    s'.queued = s.queued ∧ s'.executed = s.executed ∧ s'.disconnected = s.disconnected ∧
      s'.published = s.published ∧ s'.changeList = s.changeList := by
  cases h <;> exact ⟨rfl, rfl, rfl, rfl, rfl⟩

/-- The states that a backend on a database can reach. -/
def Reached (build : Build) (boost : BoostDate) (db : Database) (s : Backend) : Prop :=
  Reachable (fun s => s = { storage := { current := db } }) (Step build boost) s

end Backend

/-! ## The invariant -/

namespace Backend

/-- Where a stream that is not removed can be, and what it was sent. -/
inductive StreamSound (build : Build) (boost : BoostDate) (db₀ : Database) (s : Backend)
    (stream : DataStream) : Prop where
  | waiting (uninitialized : stream ∈ s.uninitializedStreams)
      (inactive : stream.streamId ∉ s.activeStreams.map (·.streamId))
      (notNew : stream.streamId ∉ s.newStreams.map (·.streamId))
      (nothing : changesFor stream.streamId s.published = [])
  | starting (new : stream ∈ s.newStreams) (active : stream ∈ s.activeStreams)
      (nothing : changesFor stream.streamId s.published = [])
  | running (active : stream ∈ s.activeStreams)
      (notNew : stream.streamId ∉ s.newStreams.map (·.streamId)) (k : Nat)
      (bound : k ≤ s.executed.length) (snapshot : List DataStreamDifferential)
      (loaded : initialChanges build boost stream (databaseAfter db₀ s.executed k) = .ok snapshot)
      (sent : changesFor stream.streamId s.published =
        changesFor stream.streamId snapshot ++ batchChanges build boost stream (s.executed.drop k))

structure Sound (build : Build) (boost : BoostDate) (db₀ : Database) (s : Backend) : Prop where
  order : s.queued = s.executed.map (·.operations) ++ s.newTasks ++ s.operationsQueue
  idle : s.storage.Idle
  history : History build boost db₀ s.executed s.storage.current
  fresh : ∀ stream ∈ s.created, stream.streamId < s.nextStreamId
  distinct : (s.created.map (·.streamId)).Nodup
  uninitialized : s.uninitializedStreams.Sublist s.created
  new : s.newStreams.Sublist s.created
  active : ∀ stream ∈ s.activeStreams, stream ∈ s.created
  activeDistinct : (s.activeStreams.map (·.streamId)).Nodup
  waitingInactive : ∀ stream ∈ s.uninitializedStreams,
    stream.streamId ∉ s.activeStreams.map (·.streamId)
  initializing : s.phase ≠ .initializing → s.newStreams = []
  tasks : s.phase = .top → s.newTasks = []
  known : ∀ c ∈ s.published, ∃ stream ∈ s.created, stream.streamId = c.streamId
  pending : s.changeList ⊆ s.published
  past : s.delivered ⊆ s.published
  streams : ∀ stream ∈ s.created, stream.streamId ∉ s.disconnected →
    StreamSound build boost db₀ s stream
  connected : ∀ stream ∈ s.created, stream.streamId ∉ s.disconnected → stream ∈ s.dataStreams
  delivered : ∀ stream ∈ s.created, stream.streamId ∉ s.disconnected →
    changesFor stream.streamId s.delivered ++ changesFor stream.streamId s.changeList =
      changesFor stream.streamId s.published

variable {build : Build} {boost : BoostDate} {db₀ : Database} {s s' : Backend}

theorem StreamSound.of_eq {stream : DataStream} (h : StreamSound build boost db₀ s stream)
    (huninit : s'.uninitializedStreams = s.uninitializedStreams)
    (hactive : s'.activeStreams = s.activeStreams) (hnew : s'.newStreams = s.newStreams)
    (hexecuted : s'.executed = s.executed) (hpublished : s'.published = s.published) :
    StreamSound build boost db₀ s' stream := by
  cases h with
  | waiting h₁ h₂ h₃ h₄ =>
    exact .waiting (huninit ▸ h₁) (hactive ▸ h₂) (hnew ▸ h₃) (hpublished ▸ h₄)
  | starting h₁ h₂ h₃ => exact .starting (hnew ▸ h₁) (hactive ▸ h₂) (hpublished ▸ h₃)
  | running h₁ h₂ k h₃ snapshot h₄ h₅ =>
    exact .running (hactive ▸ h₁) (hnew ▸ h₂) k (hexecuted ▸ h₃) snapshot (hexecuted ▸ h₄)
      (by rw [hpublished, hexecuted, h₅])

theorem sound_init (build : Build) (boost : BoostDate) (db : Database) :
    Sound build boost db { storage := { current := db } } where
  order := rfl
  idle := rfl
  history := .nil
  fresh := by simp
  distinct := by simp
  uninitialized := by simp
  new := by simp
  active := by simp
  activeDistinct := by simp
  waitingInactive := by simp
  initializing := by simp
  tasks := by simp
  known := by simp
  pending := by simp
  past := by simp
  streams := by simp
  connected := by simp
  delivered := by simp

theorem Sound.unpublished (h : Sound build boost db₀ s) {streamId : Int}
    (hid : s.nextStreamId ≤ streamId) {changes : List DataStreamDifferential}
    (hchanges : changes ⊆ s.published) : changesFor streamId changes = [] := by
  rw [changesFor, List.map_eq_nil_iff, List.filter_eq_nil_iff]
  intro c hc
  obtain ⟨stream, hs, he⟩ := h.known c (hchanges hc)
  have := h.fresh stream hs
  rw [beq_iff_eq]
  omega

theorem Sound.eq_of_streamId (h : Sound build boost db₀ s) {a b : DataStream}
    (ha : a ∈ s.created) (hb : b ∈ s.created) (he : a.streamId = b.streamId) : a = b :=
  List.inj_on_of_nodup_map h.distinct ha hb he

theorem sound_createStream (h : Sound build boost db₀ s) {stream : DataStream}
    (hid : stream.streamId = s.nextStreamId) :
    Sound build boost db₀ { s with
      nextStreamId := s.nextStreamId + 1
      dataStreams := s.dataStreams ++ [stream]
      uninitializedStreams := s.uninitializedStreams ++ [stream]
      created := s.created ++ [stream] } := by
  have hne : ∀ old ∈ s.created, old.streamId ≠ stream.streamId := by
    intro old hold
    have := h.fresh old hold
    omega
  have hinactive : stream.streamId ∉ s.activeStreams.map (·.streamId) := by
    intro hmem
    obtain ⟨old, hold, he⟩ := List.mem_map.1 hmem
    exact hne old (h.active old hold) he
  have hnotNew : stream.streamId ∉ s.newStreams.map (·.streamId) := by
    intro hmem
    obtain ⟨old, hold, he⟩ := List.mem_map.1 hmem
    exact hne old (h.new.subset hold) he
  -- nothing was published yet under the next id
  have hnone : ∀ changes, changes ⊆ s.published → changesFor stream.streamId changes = [] :=
    fun _ => h.unpublished (le_of_eq hid.symm)
  refine { h with
    fresh := ?_, distinct := ?_, uninitialized := ?_, new := ?_, active := ?_,
    waitingInactive := ?_, known := ?_, streams := ?_, connected := ?_, delivered := ?_ }
  · intro t ht
    rcases List.mem_append.1 ht with ht | ht
    · have := h.fresh t ht
      dsimp only
      omega
    · rw [List.mem_singleton.1 ht]
      dsimp only
      omega
  · rw [List.map_append, List.nodup_append]
    refine ⟨h.distinct, List.nodup_singleton _, ?_⟩
    rintro _ ha _ hb
    obtain ⟨old, hold, rfl⟩ := List.mem_map.1 ha
    rw [List.map_singleton, List.mem_singleton] at hb
    rw [hb]
    exact hne old hold
  · exact h.uninitialized.append (List.Sublist.refl _)
  · exact h.new.trans (List.sublist_append_left _ _)
  · exact fun t ht => List.mem_append_left _ (h.active t ht)
  · intro t ht
    rcases List.mem_append.1 ht with ht | ht
    · exact h.waitingInactive t ht
    · rw [List.mem_singleton.1 ht]
      exact hinactive
  · intro c hc
    obtain ⟨t, ht, he⟩ := h.known c hc
    exact ⟨t, List.mem_append_left _ ht, he⟩
  · intro t ht hconnected
    rcases List.mem_append.1 ht with ht | ht
    · cases h.streams t ht hconnected with
      | waiting h₁ h₂ h₃ h₄ => exact .waiting (List.mem_append_left _ h₁) h₂ h₃ h₄
      | starting h₁ h₂ h₃ => exact .starting h₁ h₂ h₃
      | running h₁ h₂ k h₃ snapshot h₄ h₅ => exact .running h₁ h₂ k h₃ snapshot h₄ h₅
    · rw [List.mem_singleton.1 ht]
      exact .waiting (List.mem_append_right _ List.mem_cons_self) hinactive hnotNew
        (hnone _ fun _ hc => hc)
  · intro t ht hconnected
    rcases List.mem_append.1 ht with ht | ht
    · exact List.mem_append_left _ (h.connected t ht hconnected)
    · exact List.mem_append_right _ ht
  · intro t ht hconnected
    rcases List.mem_append.1 ht with ht | ht
    · exact h.delivered t ht hconnected
    · rw [List.mem_singleton.1 ht]
      dsimp only
      rw [hnone _ h.past, hnone _ h.pending, hnone _ fun _ hc => hc]
      rfl

theorem changesFor_filter {streamId : Int} {keep : DataStreamDifferential → Bool}
    (hkeep : ∀ c, c.streamId = streamId → keep c = true) (changes : List DataStreamDifferential) :
    changesFor streamId (changes.filter keep) = changesFor streamId changes := by
  rw [changesFor, List.filter_filter, changesFor]
  congr 1
  refine List.filter_congr fun c _ => ?_
  by_cases hc : c.streamId = streamId
  · simp [hc, hkeep c hc]
  · simp [hc]

theorem sound_removeStream (h : Sound build boost db₀ s) (stream : DataStream) :
    Sound build boost db₀ { s with
      disconnected := stream.streamId :: s.disconnected
      uninitializedStreams := s.uninitializedStreams.filter (·.streamId != stream.streamId)
      activeStreams := s.activeStreams.filter (·.streamId != stream.streamId) } := by
  have hkept : ∀ t : DataStream, t.streamId ∉ stream.streamId :: s.disconnected →
      t.streamId ∉ s.disconnected ∧ (t.streamId != stream.streamId) = true := by
    intro t ht
    rw [List.mem_cons, not_or] at ht
    exact ⟨ht.2, by simpa using ht.1⟩
  have hsub := List.filter_sublist (l := s.activeStreams) (p := (·.streamId != stream.streamId))
  refine { h with
    uninitialized := ?_, active := ?_, activeDistinct := ?_, waitingInactive := ?_, streams := ?_
    connected := ?_, delivered := ?_ }
  · exact List.filter_sublist.trans h.uninitialized
  · exact fun t ht => h.active t (hsub.subset ht)
  · exact (hsub.map _).nodup h.activeDistinct
  · exact fun t ht hmem => h.waitingInactive t (List.mem_of_mem_filter ht) ((hsub.map _).subset hmem)
  · intro t ht hconnected
    obtain ⟨hc, hne⟩ := hkept t hconnected
    cases h.streams t ht hc with
    | waiting h₁ h₂ h₃ h₄ =>
      exact .waiting (List.mem_filter.2 ⟨h₁, hne⟩) (fun hmem => h₂ ((hsub.map _).subset hmem)) h₃ h₄
    | starting h₁ h₂ h₃ => exact .starting h₁ (List.mem_filter.2 ⟨h₂, hne⟩) h₃
    | running h₁ h₂ k h₃ snapshot h₄ h₅ =>
      exact .running (List.mem_filter.2 ⟨h₁, hne⟩) h₂ k h₃ snapshot h₄ h₅
  · exact fun t ht hconnected => h.connected t ht (hkept t hconnected).1
  · exact fun t ht hconnected => h.delivered t ht (hkept t hconnected).1

theorem sound_applyStreamChanges (h : Sound build boost db₀ s) :
    Sound build boost db₀ { s with
      dataStreams := s.applyStreamChanges.1
      changeList := []
      delivered := s.delivered ++ s.applyStreamChanges.2 } := by
  have hvalid : ∀ t ∈ s.created, t.streamId ∉ s.disconnected → t ∈ s.applyStreamChanges.1 := by
    intro t ht hconnected
    exact List.mem_filter.2 ⟨h.connected t ht hconnected, by simpa using hconnected⟩
  refine { h with pending := ?_, past := ?_, streams := ?_, connected := hvalid, delivered := ?_ }
  · exact List.nil_subset _
  · refine List.append_subset.2 ⟨h.past, ?_⟩
    exact fun c hc => h.pending (List.mem_of_mem_filter hc)
  · exact fun t ht hconnected => (h.streams t ht hconnected).of_eq rfl rfl rfl rfl rfl
  · intro t ht hconnected
    have hall : changesFor t.streamId s.applyStreamChanges.2 = changesFor t.streamId s.changeList := by
      refine changesFor_filter (fun c hc => ?_) _
      rw [List.any_eq_true]
      exact ⟨t, hvalid t ht hconnected, by rw [hc]; exact beq_self_eq_true _⟩
    dsimp only
    rw [changesFor_append, hall, changesFor_nil, List.append_nil]
    exact h.delivered t ht hconnected

theorem sound_collect (h : Sound build boost db₀ s) (hphase : s.phase = .swapped) :
    Sound build boost db₀ { s with
      phase := .initializing
      newStreams := s.uninitializedStreams
      activeStreams := s.activeStreams ++ s.uninitializedStreams
      uninitializedStreams := [] } := by
  have hnone : s.newStreams = [] := h.initializing (by rw [hphase]; decide)
  refine { h with
    uninitialized := ?_, new := h.uninitialized, active := ?_, activeDistinct := ?_
    waitingInactive := ?_, initializing := ?_, tasks := nofun, streams := ?_ }
  · exact List.nil_sublist _
  · intro t ht
    rcases List.mem_append.1 ht with ht | ht
    · exact h.active t ht
    · exact h.uninitialized.subset ht
  · rw [List.map_append, List.nodup_append]
    refine ⟨h.activeDistinct, (h.uninitialized.map _).nodup h.distinct, ?_⟩
    rintro a ha _ hb rfl
    obtain ⟨t, ht, rfl⟩ := List.mem_map.1 hb
    exact h.waitingInactive t ht ha
  · exact fun t ht => absurd ht List.not_mem_nil
  · exact fun hne => absurd rfl hne
  · intro t ht hconnected
    cases h.streams t ht hconnected with
    | waiting h₁ h₂ h₃ h₄ => exact .starting h₁ (List.mem_append_right _ h₁) h₄
    | starting h₁ => rw [hnone] at h₁; exact absurd h₁ List.not_mem_nil
    | running h₁ h₂ k h₃ snapshot h₄ h₅ =>
      refine .running (List.mem_append_left _ h₁) ?_ k h₃ snapshot h₄ h₅
      intro hmem
      obtain ⟨u, hu, he⟩ := List.mem_map.1 hmem
      exact h.waitingInactive u hu (he ▸ List.mem_map_of_mem h₁)

theorem initialChanges_streamId {stream : DataStream} {db : Database}
    {changes : List DataStreamDifferential}
    (h : initialChanges build boost stream db = .ok changes) :
    ∀ c ∈ changes, c.streamId = stream.streamId := by
  obtain ⟨_, -, h⟩ := Except.bind_eq_ok.1 h
  cases h
  intro c hc
  obtain ⟨_, -, rfl⟩ := List.mem_map.1 hc
  rfl

theorem changesFor_of_ne {streamId other : Int} {changes : List DataStreamDifferential}
    (h : ∀ c ∈ changes, c.streamId = other) (hne : other ≠ streamId) :
    changesFor streamId changes = [] := by
  rw [changesFor, List.map_eq_nil_iff, List.filter_eq_nil_iff]
  intro c hc
  rw [h c hc, beq_iff_eq]
  exact hne

theorem sound_initializeOne (h : Sound build boost db₀ s) {stream : DataStream}
    {rest : List DataStream} (hnext : s.newStreams = stream :: rest)
    {changes : List DataStreamDifferential}
    (hloaded : initialChanges build boost stream s.storage.current = .ok changes)
    (hphase : s.phase = .initializing) :
    Sound build boost db₀ { s with
      newStreams := rest
      changeList := s.changeList ++ changes
      published := s.published ++ changes } := by
  have hids := initialChanges_streamId hloaded
  have hnew : (stream :: rest).Sublist s.created := hnext ▸ h.new
  have hcreated : stream ∈ s.created := hnew.subset List.mem_cons_self
  have hdistinct : stream.streamId ∉ rest.map (·.streamId) := by
    have := (hnew.map (·.streamId)).nodup h.distinct
    exact (List.nodup_cons.1 this).1
  refine { h with
    new := ?_, initializing := ?_, known := ?_, pending := ?_, past := ?_, streams := ?_
    delivered := ?_ }
  · exact (List.sublist_cons_self _ _).trans hnew
  · exact fun hne => absurd hphase hne
  · intro c hc
    rcases List.mem_append.1 hc with hc | hc
    · exact h.known c hc
    · exact ⟨stream, hcreated, (hids c hc).symm⟩
  · exact List.append_subset.2 ⟨List.Subset.trans h.pending (List.subset_append_left _ _),
      List.subset_append_right _ _⟩
  · exact List.Subset.trans h.past (List.subset_append_left _ _)
  · intro t ht hconnected
    by_cases he : t.streamId = stream.streamId
    · obtain rfl := h.eq_of_streamId ht hcreated he
      cases h.streams t ht hconnected with
      | waiting _ _ h₃ =>
        exact absurd (by rw [hnext]; exact List.mem_map_of_mem List.mem_cons_self) h₃
      | running _ h₂ =>
        exact absurd (by rw [hnext]; exact List.mem_map_of_mem List.mem_cons_self) h₂
      | starting h₁ h₂ h₃ =>
        -- its snapshot is what the batches executed so far left
        refine .running h₂ hdistinct s.executed.length le_rfl changes ?_ ?_
        · rw [databaseAfter_length h.history]
          exact hloaded
        · rw [changesFor_append, h₃, List.drop_length]
          simp [batchChanges]
    · have hnone : changesFor t.streamId changes = [] := changesFor_of_ne hids fun hx => he hx.symm
      have hsame : changesFor t.streamId (s.published ++ changes) = changesFor t.streamId s.published := by
        rw [changesFor_append, hnone, List.append_nil]
      have hrest : t.streamId ∉ s.newStreams.map (·.streamId) →
          t.streamId ∉ rest.map (·.streamId) := by
        rw [hnext]
        exact fun hn hmem => hn (List.mem_cons_of_mem _ hmem)
      cases h.streams t ht hconnected with
      | waiting h₁ h₂ h₃ h₄ => exact .waiting h₁ h₂ (hrest h₃) (hsame.trans h₄)
      | running h₁ h₂ k h₃ snapshot h₄ h₅ =>
        exact .running h₁ (hrest h₂) k h₃ snapshot h₄ (hsame.trans h₅)
      | starting h₁ h₂ h₃ =>
        refine .starting ?_ h₂ (hsame.trans h₃)
        rw [hnext] at h₁
        rcases List.mem_cons.1 h₁ with rfl | h₁
        · exact absurd rfl he
        · exact h₁
  · intro t ht hconnected
    dsimp only
    rw [changesFor_append, changesFor_append, ← List.append_assoc, h.delivered t ht hconnected]

theorem history_executeTask {rs : List BatchRecord} {storage : Connection Database}
    {streams : List DataStream} {changeList changes : List DataStreamDifferential}
    {operations : Operations} {out : TaskOutcome} (hidle : storage.Idle)
    (hhistory : History build boost db₀ rs storage.current)
    (hexecuted : processTask build boost streams storage changeList operations = .ok out)
    (hadded : out.changeList = changeList ++ changes) :
    let r : BatchRecord := { before := storage.current, operations, results := out.results,
                             committed := out.committed, after := out.storage.current }
    out.storage.Idle ∧ History build boost db₀ (rs ++ [r]) out.storage.current ∧
      announce build streams (r.notices build boost) = .ok changes := by
  rcases processTask_cases hidle hexecuted with
    ⟨db, cs, hsucceed, hstorage, hlist, hcommitted⟩ | ⟨hfails, hstorage, hlist, hcommitted⟩
  · obtain rfl : cs = changes := List.append_cancel_left (hlist.symm.trans hadded)
    simp only [hstorage, hcommitted]
    exact ⟨rfl, .commit hhistory hsucceed, announce_noticesOf hsucceed⟩
  · obtain rfl : changes = [] :=
      List.append_cancel_left (hadded.symm.trans (hlist.trans (List.append_nil _).symm))
    simp only [hstorage, hcommitted]
    exact ⟨hidle, .rollback hhistory hfails, rfl⟩

theorem sound_executeTask (h : Sound build boost db₀ s) (hphase : s.phase = .processing)
    {operations : Operations} {rest : List Operations} (hnext : s.newTasks = operations :: rest)
    {out : TaskOutcome} {changes : List DataStreamDifferential}
    (hexecuted :
      processTask build boost s.activeStreams s.storage s.changeList operations = .ok out)
    (hadded : out.changeList = s.changeList ++ changes) :
    Sound build boost db₀ { s with
      newTasks := rest
      storage := out.storage
      changeList := out.changeList
      published := s.published ++ changes
      executed := s.executed ++ [{ before := s.storage.current, operations, results := out.results,
                                   committed := out.committed, after := out.storage.current }] } := by
  obtain ⟨hidle, hhistory, hannounce⟩ := history_executeTask h.idle h.history hexecuted hadded
  have hnone : s.newStreams = [] := h.initializing (by rw [hphase]; decide)
  -- a change is only announced to an active stream
  have hactive : ∀ c ∈ changes, ∃ t ∈ s.created, t.streamId = c.streamId := by
    intro c hc
    by_contra hno
    have hout : c.streamId ∉ s.activeStreams.map (·.streamId) := by
      intro hmem
      obtain ⟨t, ht, he⟩ := List.mem_map.1 hmem
      exact hno ⟨t, h.active t ht, he⟩
    have := announce_for_notMem hannounce hout
    rw [changesFor, List.map_eq_nil_iff, List.filter_eq_nil_iff] at this
    exact this c hc (beq_self_eq_true _)
  refine { h with
    order := ?_, idle := hidle, history := hhistory
    tasks := fun htop => by rw [hphase] at htop; cases htop
    known := ?_, pending := ?_, past := ?_, streams := ?_, delivered := ?_ }
  · dsimp only
    rw [h.order, hnext]
    simp
  · intro c hc
    rcases List.mem_append.1 hc with hc | hc
    · exact h.known c hc
    · exact hactive c hc
  · dsimp only
    rw [hadded]
    exact List.append_subset.2 ⟨List.Subset.trans h.pending (List.subset_append_left _ _),
      List.subset_append_right _ _⟩
  · exact List.Subset.trans h.past (List.subset_append_left _ _)
  · intro t ht hconnected
    cases h.streams t ht hconnected with
    | waiting h₁ h₂ h₃ h₄ =>
      refine .waiting h₁ h₂ h₃ ?_
      dsimp only
      rw [changesFor_append, h₄, announce_for_notMem hannounce h₂, List.append_nil]
    | starting h₁ =>
      rw [hnone] at h₁
      exact absurd h₁ List.not_mem_nil
    | running h₁ h₂ k h₃ snapshot h₄ h₅ =>
      refine .running h₁ h₂ k ?_ snapshot ?_ ?_
      · dsimp only
        rw [List.length_append]
        exact Nat.le_add_right_of_le h₃
      · dsimp only
        rw [databaseAfter_append h₃]
        exact h₄
      · dsimp only
        rw [changesFor_append, h₅, announce_for hannounce h.activeDistinct h₁,
          List.drop_append_of_le_length h₃, batchChanges, batchChanges, List.flatMap_append,
          List.append_assoc]
        simp
  · intro t ht hconnected
    dsimp only
    rw [hadded, changesFor_append, changesFor_append, ← List.append_assoc, h.delivered t ht hconnected]

/-- Every call of a client and every step of the worker keeps the invariant. -/
theorem sound_step (h : Sound build boost db₀ s) (hs : Step build boost s s') :
    Sound build boost db₀ s' := by
  have hsame : ∀ t ∈ s.created, t.streamId ∉ s.disconnected → StreamSound build boost db₀ s t :=
    h.streams
  cases hs with
  | queueOperations operations =>
    refine { h with order := ?_, streams := fun t ht hc => (hsame t ht hc).of_eq rfl rfl rfl rfl rfl }
    dsimp only
    rw [h.order, List.append_assoc]
  | createStream streamType endpoint options stream new =>
    exact sound_createStream h (by rw [new])
  | removeStream stream created => exact sound_removeStream h stream
  | applyStreamChanges => exact sound_applyStreamChanges h
  | swap phase =>
    have hnone : s.newStreams = [] := h.initializing (by rw [phase]; decide)
    refine { h with
      order := ?_, initializing := fun _ => hnone, tasks := nofun
      streams := fun t ht hc => (hsame t ht hc).of_eq rfl rfl rfl rfl rfl }
    dsimp only
    rw [h.order, h.tasks phase]
    simp
  | collect phase => exact sound_collect h phase
  | initializeOne phase stream rest next changes loaded => exact sound_initializeOne h next loaded phase
  | process phase done =>
    exact { h with
      initializing := fun _ => done, tasks := nofun
      streams := fun t ht hc => (hsame t ht hc).of_eq rfl rfl rfl rfl rfl }
  | executeTask phase operations rest next out changes executed added =>
    exact sound_executeTask h phase next executed added
  | loop phase done =>
    have hnone : s.newStreams = [] := h.initializing (by rw [phase]; decide)
    exact { h with
      initializing := fun _ => hnone, tasks := fun _ => done
      streams := fun t ht hc => (hsame t ht hc).of_eq rfl rfl rfl rfl rfl }

theorem reached_sound (h : Reached build boost db₀ s) : Sound build boost db₀ s := by
  refine Reachable.invariant (I := Sound build boost db₀) ?_ (fun _ _ => sound_step) h
  rintro _ rfl
  exact sound_init build boost db₀

/-- In every interleaving each batch is executed once and in the order of the
    queue, each as a transaction on what the ones before it left; and a stream with
    a registered endpoint that is not removed either still waits and was sent
    nothing, or was sent the snapshot of the storage after some number of batches,
    `initialized`, and all that the batches since announced for it; of this the
    observer was delivered the first part, in order, and the rest is queued. -/
theorem stream_linearization (h : Reached build boost db₀ s) :
    s.queued = s.executed.map (·.operations) ++ s.newTasks ++ s.operationsQueue ∧
    History build boost db₀ s.executed s.storage.current ∧
    ∀ stream ∈ s.created, stream.streamId ∉ s.disconnected →
      ∀ handler, findHandler stream = some handler →
        ((stream ∈ s.uninitializedStreams ∨ stream ∈ s.newStreams) ∧
            changesFor stream.streamId s.published = [] ∨
          ∃ k snapshot, k ≤ s.executed.length ∧
            handler.initializeStream build boost stream (databaseAfter db₀ s.executed k) =
              .ok snapshot ∧
            changesFor stream.streamId s.published = snapshot ++ [.initialized] ++
              batchChanges build boost stream (s.executed.drop k)) ∧
        changesFor stream.streamId s.delivered ++ changesFor stream.streamId s.changeList =
          changesFor stream.streamId s.published := by
  have hsound := reached_sound h
  refine ⟨hsound.order, hsound.history, fun stream hs hconnected handler hhandler => ?_⟩
  refine ⟨?_, hsound.delivered stream hs hconnected⟩
  cases hsound.streams stream hs hconnected with
  | waiting h₁ _ _ h₄ => exact Or.inl ⟨Or.inl h₁, h₄⟩
  | starting h₁ _ h₃ => exact Or.inl ⟨Or.inr h₁, h₃⟩
  | running _ _ k h₃ snapshot h₄ h₅ =>
    obtain ⟨changes, hchanges, h₄⟩ := Except.bind_eq_ok.1 h₄
    rw [hhandler] at hchanges
    cases h₄
    exact Or.inr ⟨k, changes, h₃, hchanges, by rw [h₅, changesFor_map]⟩

/-- A stream is created, a batch that erases everything is queued, and the worker goes once around. -/
theorem stream_linearization_oneBatch : ∃ s : Backend, s.executed.length = 1 ∧
    reservationStream 1 ∈ s.created ∧
    s.queued = s.executed.map (·.operations) ++ s.newTasks ++ s.operationsQueue := by
  have h₀ : Reached .debug .gregorian {} { storage := { current := {} } } := .init rfl
  have h₁ := h₀.step (.createStream _ .reservation "" .null (reservationStream 1) rfl)
  have h₂ := h₁.step (.queueOperations _ [.eraseAllData])
  have h₃ := h₂.step (.swap _ rfl)
  have h₄ := h₃.step (.collect _ rfl)
  have h₅ := h₄.step (.initializeOne _ rfl _ _ rfl _ rfl)
  have h₆ := h₅.step (.process _ rfl rfl)
  have h₇ := h₆.step (.executeTask _ rfl _ _ rfl _ [⟨1, .cleared⟩] rfl rfl)
  exact ⟨_, rfl, List.mem_cons_self, (stream_linearization h₇).1⟩

end Backend

end HotelPms
