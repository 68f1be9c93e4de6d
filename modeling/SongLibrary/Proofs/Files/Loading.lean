import SongLibrary.Proofs.Files.SharedCache
import SongLibrary.Proofs.Files.Truthful

/-!
# Loading songs with several workers

The paths of a library are shared out among workers, which look them up in one cache. A worker that
is done with a path counts it, and then gives a notice with its number. Between any two steps of a
worker the others go on: entries that one of them has found are there for the others, or have been
taken out again to make room, and the notices come in any order.

The files stay as they are meanwhile, so a truthful cache cannot be told from an empty one. Each
path comes to the same outcome in every order, and the report lists the outcomes as the paths are
listed.
-/

namespace SongLibrary

variable {t : FileTree} {reader : AudioReader} {paths : List Path}

/-! ## Outcomes -/

/-- What loading a path comes to after its look-up. -/
def Loaded.ofOutcome (p : Path) : Except SongFileError (Option Embedded) → Loaded
  | .ok data => ⟨.ofEmbedded p data, none⟩
  | .error cause => ⟨.ofEmbedded p none, some cause⟩

namespace FileTree

/-- What a look-up of a path comes to if nothing is cached: the stamp of the file is taken first. -/
def outcome (t : FileTree) (reader : AudioReader) (p : Path) :
    Except SongFileError (Option Embedded) :=
  match t.stamp p with
  | .error cause => .error cause
  | .ok _ => t.embedded reader p

/-- Why a path cannot be loaded: its file has no stamp, or the data cannot be taken from it. -/
def failure? (t : FileTree) (reader : AudioReader) (p : Path) : Option SongFileError :=
  match t.outcome reader p with
  | .ok _ => none
  | .error cause => some cause

theorem outcome_of_stamp {p : Path} {stamp : Stamp} (h : t.stamp p = .ok stamp) :
    t.outcome reader p = t.embedded reader p := by
  rw [outcome, h]

theorem error_ofOutcome (t : FileTree) (reader : AudioReader) (p : Path) :
    (Loaded.ofOutcome p (t.outcome reader p)).error = t.failure? reader p := by
  rw [failure?]
  cases t.outcome reader p <;> rfl

theorem length_loadEach (t : FileTree) (reader : AudioReader) (cache : Cache) (paths : List Path) :
    (t.loadEach reader cache paths).1.length = paths.length := by
  induction paths generalizing cache with
  | nil => rfl
  | cons p rest ih => exact congrArg (· + 1) (ih (t.load reader cache p).2)

/-- A file without a stamp has no data either. -/
theorem song_ofOutcome (t : FileTree) (reader : AudioReader) (p : Path) :
    (Loaded.ofOutcome p (t.outcome reader p)).song = t.songOf reader p := by
  rw [songOf]
  cases hstamp : t.stamp p with
  | ok stamp =>
      rw [outcome_of_stamp hstamp]
      cases t.embedded reader p <;> rfl
  | error cause =>
      rw [outcome, hstamp]
      cases hembedded : t.embedded reader p with
      | error cause' => rfl
      | ok data =>
          obtain ⟨f, hf⟩ := file_of_embedded hembedded
          rw [stamp_eq, hf] at hstamp
          exact absurd hstamp (by simp)

end FileTree

/-! ## Workers -/

/-- How far a worker has come with a path. -/
inductive Job where
  /-- The path is being looked up. -/
  | lookUp (call : Call)
  /-- The path has been counted, and the notice with its number is due. -/
  | counted (path : Path) (loaded : Loaded) (number : Nat)
  /-- The notice has been given. -/
  | done (path : Path) (loaded : Loaded)

namespace Job

/-- The job that has not begun. -/
def begin (p : Path) : Job := .lookUp ⟨p, 0, .begun⟩

/-- The path of a job. -/
def path : Job → Path
  | .lookUp call => call.path
  | .counted p _ _ | .done p _ => p

/-- The number that a notice is due for. -/
def due? : Job → Option Nat
  | .counted _ _ number => some number
  | .lookUp _ | .done _ _ => none

/-- Whether the path of a job has been counted. -/
def isCounted : Job → Bool
  | .lookUp _ => false
  | .counted _ _ _ | .done _ _ => true

/-- What came of a job that is done. -/
def result? : Job → Option (Path × Loaded)
  | .done p loaded => some (p, loaded)
  | .lookUp _ | .counted _ _ _ => none

end Job

/-- What the workers share: the cache, how many paths have been counted, and the notices so far. -/
structure Shared where
  cache : Cache
  counted : Nat
  notices : List Progress

/-- The notice that a path is done. -/
def Progress.ofPath (total number : Nat) (p : Path) : Progress :=
  ⟨number, total, p.fileName?.getD "unknown"⟩

/-- Makes the next step of a job. A look-up that has returned is counted; the number is taken and
the notice is given in two steps. -/
def Job.step (t : FileTree) (reader : AudioReader) (total : Nat) (s : Shared) : Job → Job × Shared
  | .lookUp call =>
    match call.stage with
    | .returned outcome _ =>
      (.counted call.path (.ofOutcome call.path outcome) (s.counted + 1),
        { s with counted := s.counted + 1 })
    | _ =>
      let (call, cache) := call.step t reader 0 s.cache
      (.lookUp call, { s with cache })
  | .counted p loaded number =>
    (.done p loaded, { s with notices := s.notices ++ [.ofPath total number p] })
  | .done p loaded => (.done p loaded, s)

/-- Some workers: a job for each path, in the order of the paths, and what they share. -/
structure Crew where
  jobs : List Job
  shared : Shared

namespace Crew

/-- The crew that has not begun. -/
def init (cache : Cache) (paths : List Path) : Crew :=
  ⟨paths.map .begin, ⟨cache, 0, []⟩⟩

/-- The next step of one job. -/
def step (t : FileTree) (reader : AudioReader) (c : Crew) (i : Nat) : Crew :=
  match c.jobs[i]? with
  | none => c
  | some job =>
    let (job, shared) := job.step t reader c.jobs.length c.shared
    ⟨c.jobs.set i job, shared⟩

/-- What a crew has come to when its jobs have made their steps in some order. -/
def run (t : FileTree) (reader : AudioReader) (cache : Cache) (paths : List Path)
    (schedule : List Nat) : Crew :=
  schedule.foldl (step t reader) (init cache paths)

/-- The report of a crew whose jobs are all done. -/
def report? (c : Crew) : Option LoadReport :=
  let results := c.jobs.filterMap Job.result?
  if c.jobs.all (fun job => job.result?.isSome) then
    some
      { songs := results.map (fun (_, l) => l.song)
        errors := results.filterMap (fun (p, l) => l.error.map (⟨p, ·⟩))
        progress := c.shared.notices }
  else none

/-- A step of the job at a place. -/
theorem step_at (t : FileTree) (reader : AudioReader) (before : List Job) (job : Job)
    (behind : List Job) (s : Shared) :
    step t reader ⟨before ++ job :: behind, s⟩ before.length =
      ⟨before ++ (job.step t reader (before ++ job :: behind).length s).1 :: behind,
        (job.step t reader (before ++ job :: behind).length s).2⟩ := by
  rw [step]
  dsimp only
  rw [List.getElem?_append_right (Nat.le_refl _), Nat.sub_self, List.getElem?_cons_zero]
  dsimp only
  rw [List.set_append_right _ _ (Nat.le_refl _), Nat.sub_self, List.set_cons_zero]

/-- A step changes one job in its place, or nothing at all. -/
theorem step_cases (t : FileTree) (reader : AudioReader) (c : Crew) (i : Nat) :
    (c.jobs.length ≤ i ∧ c.step t reader i = c) ∨ ∃ before job behind,
      before.length = i ∧ c.jobs = before ++ job :: behind ∧
      c.step t reader i = ⟨before ++ (job.step t reader c.jobs.length c.shared).1 :: behind,
        (job.step t reader c.jobs.length c.shared).2⟩ := by
  cases hi : c.jobs[i]? with
  | none => exact Or.inl ⟨List.getElem?_eq_none_iff.mp hi, by rw [step, hi]⟩
  | some job =>
      obtain ⟨hlt, hjob⟩ := List.getElem?_eq_some_iff.mp hi
      have hlength : (c.jobs.take i).length = i := by
        rw [List.length_take, Nat.min_eq_left (Nat.le_of_lt hlt)]
      have hjobs : c.jobs = c.jobs.take i ++ job :: c.jobs.drop (i + 1) := by
        rw [← hjob, ← List.drop_eq_getElem_cons hlt, List.take_append_drop]
      have hat := step_at t reader (c.jobs.take i) job (c.jobs.drop (i + 1)) c.shared
      rw [← hjobs, hlength] at hat
      exact Or.inr ⟨_, job, _, hlength, hjobs, hat⟩

end Crew

/-! ## Jobs come to the outcomes of their paths -/

/-- How many steps a look-up may still need. -/
def Call.left (call : Call) : Nat :=
  match call.stage with
  | .begun => 4
  | .stamped _ => 3
  | .missed _ => 2
  | .loaded _ _ => 1
  | .returned _ _ => 0

/-- How many steps a job may still need. -/
def Job.left : Job → Nat
  | .lookUp call => call.left + 2
  | .counted _ _ _ => 1
  | .done _ _ => 0

/-- What a look-up has seen is what there is: the files stay as they are. -/
def Call.Steady (t : FileTree) (reader : AudioReader) (call : Call) : Prop :=
  match call.stage with
  | .begun => True
  | .stamped stamp | .missed stamp => t.stamp call.path = .ok stamp
  | .loaded stamp value => t.stamp call.path = .ok stamp ∧ t.embedded reader call.path = .ok value
  | .returned outcome _ => outcome = t.outcome reader call.path

/-- What a job has come to is the outcome of its path. -/
def Job.Steady (t : FileTree) (reader : AudioReader) : Job → Prop
  | .lookUp call => call.Steady t reader
  | .counted p loaded _ | .done p loaded => loaded = .ofOutcome p (t.outcome reader p)

theorem Call.path_step (t : FileTree) (reader : AudioReader) (now : Nat) (cache : Cache)
    (call : Call) : (call.step t reader now cache).1.path = call.path := by
  rw [step]
  split
  · split <;> rfl
  · split <;> rfl
  · split <;> rfl
  · rfl
  · rfl

/-- **A step of a look-up keeps the cache truthful.** -/
theorem Call.Steady.step {now : Nat} {cache : Cache} {call : Call}
    (hcache : cache.Truthful t reader paths) (h : call.Steady t reader) (hp : call.path ∈ paths) :
    (call.step t reader now cache).1.Steady t reader ∧
      (call.step t reader now cache).2.Truthful t reader paths := by
  obtain ⟨p, began, stage⟩ := call
  cases stage with
  | begun =>
      rw [Call.step]
      dsimp only
      cases hstamp : t.stamp p with
      | error cause => exact ⟨by simp [Steady, FileTree.outcome, hstamp], hcache⟩
      | ok stamp => exact ⟨hstamp, hcache⟩
  | stamped stamp =>
      have hstamp : t.stamp p = .ok stamp := h
      rw [Call.step]
      dsimp only
      cases hfind : cache.find? p stamp with
      | none => exact ⟨hstamp, hcache⟩
      | some value =>
          -- whoever put the entry there, it bears the stamp that the file has now
          refine ⟨?_, hcache⟩
          show Except.ok value = t.outcome reader p
          rw [FileTree.outcome_of_stamp hstamp, hcache.hit hp hfind hstamp]
  | missed stamp =>
      have hstamp : t.stamp p = .ok stamp := h
      rw [Call.step]
      dsimp only
      cases hembedded : t.embedded reader p with
      | ok value => exact ⟨⟨hstamp, hembedded⟩, hcache⟩
      | error cause =>
          refine ⟨?_, hcache⟩
          show Except.error cause = t.outcome reader p
          rw [FileTree.outcome_of_stamp hstamp, hembedded]
  | loaded stamp value =>
      obtain ⟨hstamp, hembedded⟩ : t.stamp p = .ok stamp ∧ t.embedded reader p = .ok value := h
      refine ⟨?_, hcache.insert hstamp hembedded⟩
      show Except.ok value = t.outcome reader p
      rw [FileTree.outcome_of_stamp hstamp, hembedded]
  | returned outcome moment => exact ⟨h, hcache⟩

namespace Job

variable {s : Shared} {job : Job}

/-- What a step of a job does: it goes on looking up, it counts, it gives its notice, or it is done
already. -/
theorem step_cases (t : FileTree) (reader : AudioReader) (total : Nat) (s : Shared) (job : Job) :
    (∃ call, job = .lookUp call ∧ 0 < call.left ∧ job.step t reader total s =
      (.lookUp (call.step t reader 0 s.cache).1,
        { s with cache := (call.step t reader 0 s.cache).2 })) ∨
    (∃ call outcome moment, job = .lookUp call ∧ call.stage = .returned outcome moment ∧
      job.step t reader total s =
        (.counted call.path (.ofOutcome call.path outcome) (s.counted + 1),
          { s with counted := s.counted + 1 })) ∨
    (∃ p loaded number, job = .counted p loaded number ∧ job.step t reader total s =
      (.done p loaded, { s with notices := s.notices ++ [.ofPath total number p] })) ∨
    (∃ p loaded, job = .done p loaded ∧ job.step t reader total s = (job, s)) := by
  cases job with
  | lookUp call =>
      obtain ⟨p, began, stage⟩ := call
      cases stage with
      | returned outcome moment => exact Or.inr (Or.inl ⟨_, outcome, moment, rfl, rfl, rfl⟩)
      | begun => exact Or.inl ⟨_, rfl, by simp [Call.left], rfl⟩
      | stamped stamp => exact Or.inl ⟨_, rfl, by simp [Call.left], rfl⟩
      | missed stamp => exact Or.inl ⟨_, rfl, by simp [Call.left], rfl⟩
      | loaded stamp value => exact Or.inl ⟨_, rfl, by simp [Call.left], rfl⟩
  | counted p loaded number => exact Or.inr (Or.inr (Or.inl ⟨p, loaded, number, rfl, rfl⟩))
  | done p loaded => exact Or.inr (Or.inr (Or.inr ⟨p, loaded, rfl, rfl⟩))

theorem path_step (t : FileTree) (reader : AudioReader) (total : Nat) (s : Shared) (job : Job) :
    (job.step t reader total s).1.path = job.path := by
  rcases job.step_cases t reader total s with ⟨call, rfl, -, h⟩ |
      ⟨call, outcome, moment, rfl, -, h⟩ | ⟨p, loaded, number, rfl, h⟩ | ⟨p, loaded, rfl, h⟩
  · rw [h]
    exact call.path_step t reader 0 s.cache
  · rw [h]
    rfl
  · rw [h]
    rfl
  · rw [h]

theorem Steady.step (total : Nat) (hcache : s.cache.Truthful t reader paths)
    (h : job.Steady t reader) (hp : job.path ∈ paths) :
    (job.step t reader total s).1.Steady t reader ∧
      (job.step t reader total s).2.cache.Truthful t reader paths := by
  rcases job.step_cases t reader total s with ⟨call, rfl, -, hstep⟩ | ⟨call, outcome, moment, rfl,
      hstage, hstep⟩ | ⟨p, loaded, number, rfl, hstep⟩ | ⟨p, loaded, rfl, hstep⟩
  · rw [hstep]
    exact Call.Steady.step hcache h hp
  · rw [hstep]
    refine ⟨?_, hcache⟩
    have houtcome : outcome = t.outcome reader call.path := by
      simpa [Steady, Call.Steady, hstage] using h
    rw [houtcome]
    rfl
  · rw [hstep]
    exact ⟨h, hcache⟩
  · rw [hstep]
    exact ⟨h, hcache⟩

/-- A step counts one more path or none, and its number is then in the notices or due. -/
theorem step_numbers (t : FileTree) (reader : AudioReader) (total : Nat) (s : Shared) (job : Job) :
    let (job', s') := job.step t reader total s
    (s'.counted = s.counted ∧ job'.isCounted = job.isCounted ∧
      s'.notices.map Progress.current ++ job'.due?.toList =
        s.notices.map Progress.current ++ job.due?.toList) ∨
    (s'.counted = s.counted + 1 ∧ job.isCounted = false ∧ job'.isCounted = true ∧
      s'.notices = s.notices ∧ job.due? = none ∧ job'.due? = some s'.counted) := by
  rcases job.step_cases t reader total s with ⟨call, rfl, -, h⟩ |
      ⟨call, outcome, moment, rfl, -, h⟩ | ⟨p, loaded, number, rfl, h⟩ | ⟨p, loaded, rfl, h⟩
  · rw [h]
    exact Or.inl ⟨rfl, rfl, rfl⟩
  · rw [h]
    exact Or.inr ⟨rfl, rfl, rfl, rfl, rfl, rfl⟩
  · rw [h]
    exact Or.inl ⟨rfl, rfl, by simp [due?, Progress.ofPath]⟩
  · rw [h]
    exact Or.inl ⟨rfl, rfl, rfl⟩

end Job

/-! ## Every path is counted once -/

/-- The numbers in the notices and those that are due are the first ones, each once. -/
structure Numbered (jobs : List Job) (s : Shared) : Prop where
  /-- Every path that has been counted has a number. -/
  counted : s.counted = jobs.countP Job.isCounted
  numbers : (s.notices.map Progress.current ++ jobs.filterMap Job.due?).Perm
    (List.range' 1 s.counted)

section

variable {before behind : List Job} {job : Job} {s : Shared}

theorem countP_between (before : List Job) (job : Job) (behind : List Job) :
    (before ++ job :: behind).countP Job.isCounted =
      before.countP Job.isCounted + behind.countP Job.isCounted + job.isCounted.toNat := by
  rw [List.countP_append, List.countP_cons, Nat.add_assoc]
  cases job.isCounted <;> rfl

/-- The number of a job may be taken to the notices, past those that are due before it. -/
theorem perm_due_between (numbers : List Nat) (before : List Job) (job : Job) (behind : List Job) :
    (numbers ++ (before ++ job :: behind).filterMap Job.due?).Perm
      ((numbers ++ job.due?.toList) ++
        (before.filterMap Job.due? ++ behind.filterMap Job.due?)) := by
  have hcons : (job :: behind).filterMap Job.due? =
      job.due?.toList ++ behind.filterMap Job.due? := by
    cases hdue : job.due? <;> simp [hdue]
  rw [List.filterMap_append, hcons, List.append_assoc]
  exact (List.perm_append_comm_assoc _ _ _).append_left numbers

/-- **A step of one job among the others keeps the numbers.** -/
theorem Numbered.step (t : FileTree) (reader : AudioReader) (total : Nat)
    (h : Numbered (before ++ job :: behind) s) :
    Numbered (before ++ (job.step t reader total s).1 :: behind)
      (job.step t reader total s).2 := by
  have hnumbers := job.step_numbers t reader total s
  obtain ⟨job', s', hjob⟩ : ∃ job' s', job.step t reader total s = (job', s') := ⟨_, _, rfl⟩
  rw [hjob] at hnumbers ⊢
  have hold := h.counted
  rw [countP_between] at hold
  have hrest := (perm_due_between _ before job behind).symm.trans h.numbers
  rcases hnumbers with ⟨hcounted, hstate, hdue⟩ | ⟨hcounted, hbefore, hafter, hnotices, hnone, hnew⟩
  · refine ⟨?_, (perm_due_between _ before job' behind).trans ?_⟩
    · rw [countP_between, hcounted, hstate, hold]
    · rw [hcounted, hdue]
      exact hrest
  · -- the path has been counted just now, and its number is the next one
    refine ⟨?_, (perm_due_between _ before job' behind).trans ?_⟩
    · rw [countP_between, hcounted, hold, hbefore, hafter]
      rfl
    · rw [hnone, Option.toList_none, List.append_nil] at hrest
      rw [hnotices, hnew, hcounted, Option.toList_some, List.append_assoc, List.range'_1_concat,
        Nat.add_comm s.counted 1]
      refine (List.perm_append_comm_assoc _ _ _).trans ?_
      exact List.perm_append_comm.trans (hrest.append_right _)

end

namespace Crew

/-- What is true of a crew at every moment. -/
structure Sound (t : FileTree) (reader : AudioReader) (paths : List Path) (c : Crew) : Prop where
  /-- The jobs stand in the order of the paths. -/
  inOrder : c.jobs.map Job.path = paths
  /-- What the jobs have come to are the outcomes of their paths. -/
  jobs : ∀ job ∈ c.jobs, job.Steady t reader
  /-- The cache is truthful, whatever has been put into it and taken out. -/
  cache : c.shared.cache.Truthful t reader paths
  numbered : Numbered c.jobs c.shared

theorem sound_init {cache : Cache} (h : cache.Truthful t reader paths) :
    (init cache paths).Sound t reader paths where
  inOrder := by simp [init, Function.comp_def, Job.begin, Job.path]
  jobs := by
    intro job hjob
    obtain ⟨p, -, rfl⟩ := List.mem_map.mp hjob
    exact trivial
  cache := h
  numbered := by
    have hcounted : (paths.map Job.begin).countP Job.isCounted = 0 := by
      simp [List.countP_eq_zero, Job.begin, Job.isCounted]
    have hdue : (paths.map Job.begin).filterMap Job.due? = [] := by
      simp [List.filterMap_eq_nil_iff, Job.begin, Job.due?]
    exact ⟨hcounted.symm, by simp [init, hdue]⟩

/-- **A step of any job keeps the invariant.** -/
theorem sound_step {c : Crew} (h : c.Sound t reader paths) (i : Nat) :
    (c.step t reader i).Sound t reader paths := by
  rcases c.step_cases t reader i with ⟨-, hsame⟩ | ⟨before, job, behind, -, hjobs, hstep⟩
  · rw [hsame]
    exact h
  have hmem : job ∈ c.jobs := by rw [hjobs]; simp
  have hpath : job.path ∈ paths := by
    rw [← h.inOrder]
    exact List.mem_map_of_mem hmem
  have hnumbered := h.numbered
  rw [hjobs] at hnumbered
  obtain ⟨hsteady, htruthful⟩ := (h.jobs job hmem).step c.jobs.length h.cache hpath
  rw [hstep]
  refine ⟨?_, fun other hother => ?_, htruthful, hnumbered.step t reader _⟩
  · rw [← h.inOrder, hjobs]
    simp [job.path_step t reader]
  · rcases List.mem_append.mp hother with hother | hother
    · exact h.jobs other (by rw [hjobs]; exact List.mem_append_left _ hother)
    · rcases List.mem_cons.mp hother with rfl | hother
      · exact hsteady
      · exact h.jobs other (by rw [hjobs]; simp [hother])

theorem sound_run {cache : Cache} (h : cache.Truthful t reader paths) (schedule : List Nat) :
    (run t reader cache paths schedule).Sound t reader paths := by
  -- the steps after any moment keep what is true then
  have hfoldl : ∀ c : Crew, c.Sound t reader paths →
      (schedule.foldl (step t reader) c).Sound t reader paths := by
    induction schedule with
    | nil => exact fun c h => h
    | cons i schedule ih => exact fun c h => ih _ (sound_step h i)
  exact hfoldl _ (sound_init h)

/-- The jobs of a crew that is done, whose look-ups came to the outcomes of their paths. -/
def outcomes (t : FileTree) (reader : AudioReader) (paths : List Path) : List Job :=
  paths.map fun p => .done p (.ofOutcome p (t.outcome reader p))

/-- **When there is a report, every path has come to its outcome and all numbers are given.** -/
theorem Sound.of_report {c : Crew} (h : c.Sound t reader paths) {report : LoadReport}
    (hreport : c.report? = some report) :
    c.jobs = outcomes t reader paths ∧
      (c.shared.notices.map Progress.current).Perm (List.range' 1 paths.length) := by
  have hall : ∀ job ∈ c.jobs, job.result?.isSome = true := by
    rw [report?] at hreport
    split at hreport
    · rename_i hdone
      exact List.all_eq_true.mp hdone
    · exact absurd hreport (by simp)
  have hjobs : c.jobs = outcomes t reader paths := by
    rw [outcomes, ← h.inOrder, List.map_map]
    refine ((List.map_congr_left fun job hjob => ?_).trans (List.map_id _)).symm
    have hresult := hall job hjob
    have hsteady := h.jobs job hjob
    cases job with
    | done p loaded => rw [show loaded = .ofOutcome p (t.outcome reader p) from hsteady]; rfl
    | lookUp call => exact absurd hresult (by simp [Job.result?])
    | counted p loaded number => exact absurd hresult (by simp [Job.result?])
  have hcounted : c.shared.counted = paths.length := by
    rw [h.numbered.counted, hjobs, outcomes]
    simp [Function.comp_def, Job.isCounted]
  have hdue : c.jobs.filterMap Job.due? = [] := by
    rw [hjobs, outcomes]
    simp [Job.due?]
  have hnumbers := h.numbered.numbers
  rw [hdue, hcounted, List.append_nil] at hnumbers
  exact ⟨hjobs, hnumbers⟩

end Crew

/-! ## The report -/

/-- What a report says of some paths when it says of each of them what is in its file. -/
structure LoadReport.Tells (t : FileTree) (reader : AudioReader) (paths : List Path)
    (r : LoadReport) : Prop where
  /-- There is one song for each path, in the order of the paths. -/
  songs : r.songs = paths.map (t.songOf reader)
  /-- The errors are those of the paths that cannot be loaded, in the order of the paths. -/
  errors : r.errors = paths.filterMap fun p => (t.failure? reader p).map (⟨p, ·⟩)
  /-- The errors are counted. -/
  failed : r.failed = paths.countP fun p => (t.failure? reader p).isSome
  /-- The notices bear the first numbers, each once. -/
  progress : (r.progress.map Progress.current).Perm (List.range' 1 paths.length)

namespace Crew

/-- **A report tells of every path what is in its file.** -/
theorem Sound.tells {c : Crew} (h : c.Sound t reader paths) {report : LoadReport}
    (hreport : c.report? = some report) : report.Tells t reader paths := by
  obtain ⟨hjobs, hnumbers⟩ := h.of_report hreport
  have hresults : c.jobs.filterMap Job.result? =
      paths.map fun p => (p, Loaded.ofOutcome p (t.outcome reader p)) := by
    rw [hjobs, outcomes, List.filterMap_map, ← List.filterMap_eq_map]
    rfl
  rw [report?, hresults] at hreport
  dsimp only at hreport
  split at hreport
  · obtain rfl := Option.some.inj hreport
    have herrors : (paths.map fun p => (p, Loaded.ofOutcome p (t.outcome reader p))).filterMap
        (fun (p, l) => l.error.map (PathError.mk p)) =
          paths.filterMap fun p => (t.failure? reader p).map (⟨p, ·⟩) := by
      rw [List.filterMap_map]
      refine List.filterMap_congr fun p _ => ?_
      rw [← FileTree.error_ofOutcome]
      rfl
    refine ⟨?_, herrors, ?_, hnumbers⟩
    · rw [List.map_map]
      exact List.map_congr_left fun p _ => FileTree.song_ofOutcome t reader p
    · rw [LoadReport.failed, herrors, List.length_filterMap_eq_countP]
      simp
  · exact absurd hreport (by simp)

end Crew

/-! ## Jobs that make enough steps are done -/

theorem Call.left_step (t : FileTree) (reader : AudioReader) (now : Nat) (cache : Cache)
    (call : Call) : (call.step t reader now cache).1.left ≤ call.left - 1 := by
  obtain ⟨p, began, stage⟩ := call
  rw [step]
  cases stage with
  | begun => dsimp only; cases t.stamp p <;> simp [left]
  | stamped stamp => dsimp only; cases cache.find? p stamp <;> simp [left]
  | missed stamp => dsimp only; cases t.embedded reader p <;> simp [left]
  | loaded stamp value => simp [left]
  | returned outcome moment => simp [left]

theorem Job.left_step (t : FileTree) (reader : AudioReader) (total : Nat) (s : Shared) (job : Job) :
    (job.step t reader total s).1.left ≤ job.left - 1 := by
  rcases job.step_cases t reader total s with ⟨call, rfl, hleft, h⟩ |
      ⟨call, outcome, moment, rfl, -, h⟩ | ⟨p, loaded, number, rfl, h⟩ | ⟨p, loaded, rfl, h⟩
  · rw [h]
    have hcall := call.left_step t reader 0 s.cache
    simp only [left]
    omega
  · rw [h]
    simp [left]
  · rw [h]
    simp [left]
  · rw [h]
    simp [left]

namespace Crew

/-- How many steps the job at an index may still need. -/
def leftAt (c : Crew) (i : Nat) : Nat := (c.jobs[i]?.map Job.left).getD 0

theorem leftAt_step (t : FileTree) (reader : AudioReader) (c : Crew) (i j : Nat) :
    (c.step t reader i).leftAt j ≤ c.leftAt j - if i = j then 1 else 0 := by
  rcases c.step_cases t reader i with ⟨hlength, hsame⟩ | ⟨before, job, behind, hi, hjobs, hstep⟩
  · rw [hsame]
    split
    · rename_i hij
      rw [leftAt, List.getElem?_eq_none_iff.mpr (hij ▸ hlength)]
      simp
    · exact Nat.le_refl _
  · rw [hstep, leftAt, leftAt, hjobs]
    dsimp only
    rcases Nat.lt_trichotomy j before.length with hj | hj | hj
    · rw [if_neg (by omega), List.getElem?_append_left hj, List.getElem?_append_left hj]
      exact Nat.le_refl _
    · rw [if_pos (by omega), hj, List.getElem?_append_right (Nat.le_refl _),
        List.getElem?_append_right (Nat.le_refl _), Nat.sub_self]
      exact job.left_step t reader _ c.shared
    · obtain ⟨k, rfl⟩ := Nat.exists_eq_add_of_lt hj
      rw [if_neg (by omega), List.getElem?_append_right (by omega),
        List.getElem?_append_right (by omega), show before.length + k + 1 - before.length = k + 1
          by omega]
      exact Nat.le_refl _

theorem leftAt_run (t : FileTree) (reader : AudioReader) (cache : Cache) (paths : List Path)
    (schedule : List Nat) (j : Nat) :
    (run t reader cache paths schedule).leftAt j ≤ 6 - schedule.count j := by
  have hfoldl : ∀ c : Crew,
      (schedule.foldl (step t reader) c).leftAt j ≤ c.leftAt j - schedule.count j := by
    induction schedule with
    | nil => exact fun c => Nat.le_refl _
    | cons i schedule ih =>
        intro c
        have hstep := leftAt_step t reader c i j
        have hrest := ih (c.step t reader i)
        rw [List.foldl_cons, List.count_cons]
        simp only [beq_iff_eq]
        omega
  -- four steps to look a path up, one to count it and one for the notice
  have hinit : (init cache paths).leftAt j ≤ 6 := by
    rw [leftAt, init]
    dsimp only
    rw [List.getElem?_map]
    cases paths[j]? <;> simp [Job.begin, Job.left, Call.left]
  exact Nat.le_trans (hfoldl _) (Nat.sub_le_sub_right hinit _)

/-- **A crew whose jobs have all made six steps has a report**, whatever stands between them. -/
theorem report_of_enough (cache : Cache) (h : cache.Truthful t reader paths) {schedule : List Nat}
    (henough : ∀ i < paths.length, 6 ≤ schedule.count i) :
    ∃ report, (run t reader cache paths schedule).report? = some report := by
  have hlength : (run t reader cache paths schedule).jobs.length = paths.length := by
    have hpaths := congrArg List.length (sound_run h schedule).inOrder
    rwa [List.length_map] at hpaths
  have hdone : ∀ job ∈ (run t reader cache paths schedule).jobs, job.result?.isSome = true := by
    intro job hjob
    obtain ⟨i, hi, hget⟩ := List.getElem_of_mem hjob
    have hleft := leftAt_run t reader cache paths schedule i
    have hcount := henough i (hlength ▸ hi)
    rw [leftAt, List.getElem?_eq_getElem hi, hget, Option.map_some, Option.getD_some] at hleft
    cases job with
    | done p loaded => rfl
    | lookUp call => simp only [Job.left] at hleft; omega
    | counted p loaded number => simp only [Job.left] at hleft; omega
  rw [report?]
  dsimp only
  rw [if_pos (List.all_eq_true.mpr hdone)]
  exact ⟨_, rfl⟩

end Crew

/-! ## One path after the other -/

/-- Makes some steps of a job while the others wait. -/
def Job.steps (t : FileTree) (reader : AudioReader) (total : Nat) :
    Nat → Shared → Job → Job × Shared
  | 0, s, job => (job, s)
  | n + 1, s, job =>
    let (job, s) := job.step t reader total s
    steps t reader total n s job

/-- **A job that is not interrupted loads its path in six steps.** -/
theorem Job.steps_six (t : FileTree) (reader : AudioReader) (total : Nat) (s : Shared) (p : Path) :
    Job.steps t reader total 6 s (.begin p) = (.done p (t.load reader s.cache p).1,
      ⟨(t.load reader s.cache p).2, s.counted + 1,
        s.notices ++ [.ofPath total (s.counted + 1) p]⟩) := by
  cases hstamp : t.stamp p with
  | error cause =>
      simp [steps, step, begin, Call.step, FileTree.load, Cache.getOrLoad, Loaded.ofOutcome,
        hstamp]
  | ok stamp =>
      cases hfind : s.cache.find? p stamp with
      | some value =>
          simp [steps, step, begin, Call.step, FileTree.load, Cache.getOrLoad, Loaded.ofOutcome,
            hstamp, hfind]
      | none =>
          cases hembedded : t.embedded reader p <;>
            simp [steps, step, begin, Call.step, FileTree.load, Cache.getOrLoad, Loaded.ofOutcome,
              hstamp, hfind, hembedded]

namespace Crew

theorem foldl_replicate (t : FileTree) (reader : AudioReader) (before : List Job)
    (behind : List Job) (n : Nat) :
    ∀ (job : Job) (s : Shared),
      (List.replicate n before.length).foldl (step t reader) ⟨before ++ job :: behind, s⟩ =
        ⟨before ++ (job.steps t reader (before.length + behind.length + 1) n s).1 :: behind,
          (job.steps t reader (before.length + behind.length + 1) n s).2⟩ := by
  induction n with
  | zero => exact fun job s => rfl
  | succ n ih =>
      intro job s
      rw [List.replicate_succ, List.foldl_cons, step_at, List.length_append, List.length_cons,
        ← Nat.add_assoc, ih]
      rfl

/-- The order in which the jobs with the indices from one on are done one after the other. -/
def inOrder (first n : Nat) : List Nat := (List.range' first n).flatMap (List.replicate 6)

theorem foldl_inOrder (t : FileTree) (reader : AudioReader) (total : Nat) :
    ∀ (rest : List Path) (before : List Job) (s : Shared), before.length + rest.length = total →
      (inOrder before.length rest.length).foldl (step t reader) ⟨before ++ rest.map .begin, s⟩ =
        ⟨before ++ (rest.zip (t.loadEach reader s.cache rest).1).map (fun (p, l) => .done p l),
          ⟨(t.loadEach reader s.cache rest).2, s.counted + rest.length,
            s.notices ++ rest.mapIdx fun i p => .ofPath total (s.counted + i + 1) p⟩⟩ := by
  intro rest
  induction rest with
  | nil => intro before s _; simp [inOrder, FileTree.loadEach]
  | cons p rest ih =>
      intro before s htotal
      rw [List.length_cons] at htotal
      have hsum : before.length + rest.length + 1 = total := by omega
      rw [inOrder, List.length_cons, List.range'_succ, List.flatMap_cons, List.foldl_append,
        List.map_cons, foldl_replicate, List.length_map, hsum, Job.steps_six]
      -- the job that is done now stands before those to come
      have hrest := ih (before ++ [.done p (t.load reader s.cache p).1])
        ⟨(t.load reader s.cache p).2, s.counted + 1, s.notices ++ [.ofPath total (s.counted + 1) p]⟩
        (by rw [List.length_append, List.length_singleton]; omega)
      rw [List.length_append, List.length_singleton, inOrder, List.append_assoc,
        List.singleton_append] at hrest
      refine hrest.trans ?_
      simp [FileTree.loadEach, List.mapIdx_cons, Nat.add_assoc, Nat.add_comm 1]

/-- **Loading the paths one after the other is one of the orders.** -/
theorem run_inOrder (t : FileTree) (reader : AudioReader) (cache : Cache) (paths : List Path) :
    let c := run t reader cache paths (inOrder 0 paths.length)
    c.report? = some (t.loadAll reader cache paths).1 ∧
      c.shared.cache = (t.loadAll reader cache paths).2 := by
  intro c
  have hrun : c = ⟨(paths.zip (t.loadEach reader cache paths).1).map (fun (p, l) => .done p l),
      ⟨(t.loadEach reader cache paths).2, paths.length,
        paths.mapIdx fun i p => .ofPath paths.length (i + 1) p⟩⟩ := by
    have hfoldl := foldl_inOrder t reader paths.length paths [] ⟨cache, 0, []⟩ (Nat.zero_add _)
    simp only [List.length_nil, List.nil_append, Nat.zero_add] at hfoldl
    exact hfoldl
  have hresults : ∀ results : List (Path × Loaded),
      (results.map (fun (p, l) => Job.done p l)).filterMap Job.result? = results := by
    intro results
    rw [List.filterMap_map]
    exact List.filterMap_some
  rw [hrun]
  refine ⟨?_, rfl⟩
  rw [report?]
  dsimp only
  rw [hresults, if_pos (by simp [Job.result?])]
  have hsongs : (paths.zip (t.loadEach reader cache paths).1).map (fun (_, l) => l.song) =
      (t.loadEach reader cache paths).1.map Loaded.song := by
    have hsnd := List.map_snd_zip (Nat.le_of_eq (t.length_loadEach reader cache paths))
    have hmap := congrArg (List.map Loaded.song) hsnd
    rwa [List.map_map] at hmap
  rw [hsongs]
  rfl

end Crew

namespace FileTree

open Crew

/-- Every load tells of every path what is in its file. -/
theorem tells_loadAll {cache : Cache} (h : cache.Truthful t reader paths) :
    (t.loadAll reader cache paths).1.Tells t reader paths :=
  (sound_run h (inOrder 0 paths.length)).tells (run_inOrder t reader cache paths).1

/--
**What a load reports depends on the files alone.**

Some workers load some paths, which may be repeated, with a cache that is truthful about these
paths, in any order of their steps. Their report tells of every path what is in its file, and the
notices bear the first numbers, each once. The songs and the errors are those of a load of one path
after the other with an empty cache. There is a report as soon as every worker has made all its
steps, and loading one path after the other with this cache is one of the orders.
-/
theorem load_anyOrder (t : FileTree) (reader : AudioReader) (cache : Cache) (paths : List Path)
    (h : cache.Truthful t reader paths) :
    (∀ schedule report, (run t reader cache paths schedule).report? = some report →
      report.Tells t reader paths ∧ ∀ capacity,
        let fresh := (t.loadAll reader (.empty capacity) paths).1
        report.songs = fresh.songs ∧ report.errors = fresh.errors ∧
          report.failed = fresh.failed) ∧
    (∀ schedule, (∀ i < paths.length, 6 ≤ schedule.count i) →
      ∃ report, (run t reader cache paths schedule).report? = some report) ∧
    (∃ schedule, (run t reader cache paths schedule).report? =
      some (t.loadAll reader cache paths).1) := by
  refine ⟨fun schedule report hreport => ?_, fun schedule henough => ?_,
    ⟨inOrder 0 paths.length, (run_inOrder t reader cache paths).1⟩⟩
  · have htells := (sound_run h schedule).tells hreport
    refine ⟨htells, fun capacity => ?_⟩
    have hfresh := tells_loadAll (Cache.truthful_empty capacity t reader paths)
    exact ⟨htells.songs.trans hfresh.songs.symm, htells.errors.trans hfresh.errors.symm,
      htells.failed.trans hfresh.failed.symm⟩
  · exact report_of_enough cache h henough

/-- A cache for one entry that knows what was in a file before it was written again. -/
def oldCache : Cache :=
  ⟨1, [([.name "a"], ⟨.file 36 (.given 1), some ⟨"", [("t", .bool false)]⟩⟩)], [[.name "a"]]⟩

/-- Three workers take turns. Two of them load the same file, which has changed since it was cached;
the file of the one between them is missing. -/
theorem load_anyOrder_turns :
    let t := Traffic.rewritten.tree 1
    let reader := Traffic.rewritten.reader
    let paths : List Path := [⟨"a"⟩, ⟨"/m/b"⟩, ⟨"a"⟩]
    let song : Song := ⟨⟨"a"⟩, [("t", .bool true)], ""⟩
    let schedule := (List.replicate 6 [2, 0, 1]).flatten
    oldCache.Truthful t reader paths ∧
    ∃ report, (run t reader oldCache paths schedule).report? = some report ∧
      report.songs = [song, .ofEmbedded ⟨"/m/b"⟩ none, song] ∧
      report.errors = [⟨⟨"/m/b"⟩, .cannotStat ⟨"/m/b"⟩ .noSuchFile⟩] ∧ report.failed = 1 ∧
      (report.progress.map Progress.current).Perm [1, 2, 3] := by
  intro t reader paths song schedule
  have hstamp : t.stamp ⟨"a"⟩ = .ok (.file 35 (.given 2)) := by decide +kernel
  have hmissing : t.stamp ⟨"/m/b"⟩ = .error (.cannotStat ⟨"/m/b"⟩ .noSuchFile) := by
    decide +kernel
  have htruthful : oldCache.Truthful t reader paths := by
    intro e he p hp _ hold
    obtain rfl := List.mem_singleton.mp he
    simp only [paths, List.mem_cons, List.not_mem_nil, or_false] at hp
    rcases hp with rfl | rfl | rfl
    · exact absurd (hstamp.symm.trans hold) (by simp)
    · exact absurd (hmissing.symm.trans hold) (by simp)
    · exact absurd (hstamp.symm.trans hold) (by simp)
  have ha : t.songOf reader ⟨"a"⟩ = song ∧ t.failure? reader ⟨"a"⟩ = none := by
    rw [songOf, failure?, outcome_of_stamp hstamp, Traffic.embedded_rewritten]
    exact ⟨rfl, rfl⟩
  have hb : t.songOf reader ⟨"/m/b"⟩ = .ofEmbedded ⟨"/m/b"⟩ none ∧
      t.failure? reader ⟨"/m/b"⟩ = some (.cannotStat ⟨"/m/b"⟩ .noSuchFile) := by
    have hfile : t.file ⟨"/m/b"⟩ = .error .noSuchFile := by decide +kernel
    rw [songOf, embedded, hfile, failure?, outcome, hmissing]
    exact ⟨rfl, rfl⟩
  have hload := load_anyOrder t reader oldCache paths htruthful
  obtain ⟨report, hreport⟩ := hload.2.1 schedule (by decide)
  obtain ⟨htells, -⟩ := hload.1 schedule report hreport
  refine ⟨htruthful, report, hreport, ?_, ?_, ?_, htells.progress⟩
  · rw [htells.songs]
    simp [paths, ha.1, hb.1]
  · rw [htells.errors]
    simp [paths, ha.2, hb.2]
  · rw [htells.failed]
    simp [paths, ha.2, hb.2]

end FileTree

end SongLibrary
