import SongLibrary.Proofs.Files.Cache
import SongLibrary.Proofs.Files.Naming

/-!
# A cache that is shared while files change

Several workers look paths up in one cache. A look-up is not done at once: it takes the stamp of the
file, asks the cache, loads the file and keeps what it has loaded. Between any two of these steps
other look-ups go on, files are written and entries are taken out of the cache.

An entry may therefore bear the stamp that a file had before a write and the data that the file had
after it. What makes such an entry harmless is that every write gives its file a stamp that it has
never had: whoever looks for the old stamp has taken it before the write, and has been looking ever
since.
-/

namespace SongLibrary

/-! ## Files over time -/

/-- One tree comes from another by writing a file, whatever the clock does. -/
def Writes (t t' : FileTree) (p : Path) (f : File) : Prop :=
  ∃ written clock, t.writeFile p f = .ok written ∧ t' = { written with clock }

/-- The trees that follow one another while a cache is used, and the library that reads the files.
Nothing happens but that files are written, and the path that is written gets a stamp that it has
never had. -/
structure Timeline where
  reader : AudioReader
  tree : Nat → FileTree
  change : ∀ n, tree (n + 1) = tree n ∨ ∃ p f, Writes (tree n) (tree (n + 1)) p f ∧
    ∀ k ≤ n, (tree k).stamp p ≠ .ok (Entry.file f).stamp

namespace Timeline

variable {w : Timeline} {p q : Path} {stamp : Stamp} {value : Option Embedded}

theorem change_cases (w : Timeline) (n : Nat) :
    w.tree (n + 1) = w.tree n ∨ ∃ p l f, FileTree.FilePut (w.tree n) (w.tree (n + 1)) l f ∧
      (w.tree (n + 1)).locate p = .ok l ∧
      ∀ k ≤ n, (w.tree k).stamp p ≠ .ok (Entry.file f).stamp := by
  rcases w.change n with hsame | ⟨p, f, ⟨written, clock, hwrite, htree⟩, hfresh⟩
  · exact Or.inl hsame
  obtain ⟨l, -, hput, hlocate⟩ := FileTree.writeFile_cases hwrite
  refine Or.inr ⟨p, l, f, ?_, ?_, hfresh⟩
  · rw [htree]
    exact ⟨hput.vacant, hput.here, hput.elsewhere, hput.start⟩
  · rw [htree]
    exact hlocate

/-- What every write keeps is still so later. -/
theorem kept {P : FileTree → Prop} {k n : Nat} (hkn : k ≤ n) (h : P (w.tree k))
    (hwrite : ∀ {t t' : FileTree} {l : Location} {f : File},
      FileTree.FilePut t t' l f → P t → P t') : P (w.tree n) := by
  induction hkn with
  | refl => exact h
  | @step n _ ih =>
      rcases w.change_cases n with hsame | ⟨-, l, f, hput, -, -⟩
      · rw [hsame]
        exact ih
      · exact hwrite hput ih

/-- A path leads where it led. -/
theorem locate_later {k n : Nat} {l : Location} (hkn : k ≤ n) (h : (w.tree k).locate p = .ok l) :
    (w.tree n).locate p = .ok l :=
  kept (P := fun t => t.locate p = .ok l) hkn h fun hput hold => hput.grows.locate_ok hold

/-- A path led where it leads as soon as anything was there. -/
theorem locate_earlier {k n : Nat} {l : Location} (hkn : k ≤ n) (h : (w.tree n).locate p = .ok l)
    (hl : (FileTree.entry? (w.tree k) l).isSome = true) : (w.tree k).locate p = .ok l := by
  -- the way back goes write by write, and each needs the entry to have been there
  have hall : ∀ m, k ≤ m → (FileTree.entry? (w.tree m) l).isSome = true := fun m hkm =>
    kept (P := fun t => (t.entry? l).isSome = true) hkm hl fun hput hold => hput.entry?_isSome hold
  induction hkn with
  | refl => exact h
  | @step n hkn ih =>
      rcases w.change_cases n with hsame | ⟨-, l', f, hput, -, -⟩
      · rw [hsame] at h
        exact ih h
      · exact ih (hput.locate_back h (hall n hkn))

/-- A write leaves the file of a path as it is, or it gives the path a stamp that it never had. -/
theorem file_succ (w : Timeline) (n : Nat) (q : Path) :
    (w.tree (n + 1)).file q = (w.tree n).file q ∨
      ∀ k ≤ n, ∀ stamp, (w.tree k).stamp q = .ok stamp → (w.tree (n + 1)).stamp q ≠ .ok stamp := by
  rcases w.change_cases n with hsame | ⟨p, l, f, hput, hp, hfresh⟩
  · exact Or.inl (by rw [hsame])
  by_cases hq : (w.tree (n + 1)).locate q = .ok l
  · -- the path that was written and this one have always had the same stamps
    right
    intro k hk stamp hold hnew
    rw [FileTree.stamp_eq, hput.file_here hq] at hnew
    obtain ⟨m, hm⟩ := FileTree.locate_of_stamp hold
    have hml : m = l := by
      have hlater := locate_later (Nat.le_succ_of_le hk) hm
      rw [hq] at hlater
      exact (Except.ok.inj hlater).symm
    subst hml
    have hpk := locate_earlier (Nat.le_succ_of_le hk) hp (FileTree.entry?_of_locate hm)
    refine hfresh k hk ?_
    rw [Except.ok.inj hnew, ← hold, FileTree.stamp, FileTree.stamp, hpk, hm]
  cases hlocate : (w.tree (n + 1)).locate q with
  | error cause =>
      right
      intro k _ stamp _ hstamp
      obtain ⟨m, hm⟩ := FileTree.locate_of_stamp hstamp
      rw [hlocate] at hm
      exact absurd hm (by simp)
  | ok m =>
      have hm : m ≠ l := by
        rintro rfl
        exact hq hlocate
      -- this path leads elsewhere, to what the write has left alone
      exact Or.inl (hput.file_elsewhere (hput.locate_elsewhere hlocate hm) hm)

/-- **While a path has a stamp it has one file.** The stamp does not come back once it is gone, so
two moments with the same stamp have no write between them. -/
theorem file_of_stamps {i j k : Nat} (hij : i ≤ j) (hjk : j ≤ k)
    (hi : (w.tree i).stamp p = .ok stamp) (hk : (w.tree k).stamp p = .ok stamp) :
    (w.tree j).file p = (w.tree k).file p := by
  induction hjk with
  | refl => rfl
  | step hjn ih =>
      rename_i n
      rcases w.file_succ n p with hsame | hfresh
      · rw [FileTree.stamp_congr hsame] at hk
        rw [hsame]
        exact ih hk
      · -- a change would have brought a stamp that the path never had, but this one it had
        exact absurd hk (hfresh i (Nat.le_trans hij hjn) stamp hi)

/-- Where there is a folder there will be one. -/
theorem folder_stays {i j : Nat} (hij : i ≤ j) (h : (w.tree i).file p = .error .isFolder) :
    (w.tree j).file p = .error .isFolder := by
  refine kept (P := fun t => t.file p = .error .isFolder) hij h fun {t t' l f} hput hold => ?_
  obtain ⟨m, hm, hfolder⟩ := FileTree.folder_cases hold
  have hne : m ≠ l := by
    rintro rfl
    rw [hput.vacant] at hfolder
    exact Bool.noConfusion hfolder
  rw [hput.file_elsewhere hm hne]
  exact hold

/-- A value was found in the file at a path, after the file was seen to have a stamp. -/
def Recorded (w : Timeline) (p : Path) (stamp : Stamp) (value : Option Embedded)
    (first last : Nat) : Prop :=
  ∃ i j, first ≤ i ∧ i ≤ j ∧ j ≤ last ∧ (w.tree i).stamp p = .ok stamp ∧
    (w.tree j).embedded w.reader p = .ok value

theorem Recorded.mono {first last first' last' : Nat} (hfirst : first' ≤ first)
    (hlast : last ≤ last') (h : w.Recorded p stamp value first last) :
    w.Recorded p stamp value first' last' := by
  obtain ⟨i, j, hi, hij, hj, hstamp, hvalue⟩ := h
  exact ⟨i, j, Nat.le_trans hfirst hi, hij, Nat.le_trans hj hlast, hstamp, hvalue⟩

/-- **Whoever sees the stamp of a record will have seen its value.** If the record was made before
the stamp was seen, the file has not changed in between. If it was made later, that was in time. -/
theorem Recorded.seen {first last k : Nat} (hpq : p.components = q.components)
    (h : w.Recorded p stamp value first last) (hk : k ≤ last)
    (hstamp : (w.tree k).stamp q = .ok stamp) :
    ∃ m, k ≤ m ∧ m ≤ last ∧ (w.tree m).embedded w.reader q = .ok value := by
  obtain ⟨i, j, -, hij, hj, hi, hvalue⟩ := h
  obtain ⟨f, hf⟩ := FileTree.file_of_embedded hvalue
  cases stamp with
  | folder =>
      -- a folder would still have been there when the file was loaded
      have hfolder := folder_stays hij (FileTree.file_of_folderStamp hi)
      rw [hf] at hfolder
      exact absurd hfolder (by simp)
  | file size modified =>
      obtain ⟨g, hg⟩ := FileTree.file_of_stamp hstamp
      rcases Nat.le_total k j with hkj | hjk
      · -- the value was found after the stamp was seen: it is as new as it has to be
        have hq := FileTree.file_congr hpq.symm hg hf
        exact ⟨j, hkj, hj, FileTree.embedded_congr hpq hf hq hvalue⟩
      · -- the stamp was seen later: the file is the one that the value was found in
        have hp := FileTree.file_congr hpq hf hg
        have hsame := file_of_stamps hij hjk hi (by
          rw [FileTree.stamp_eq, hp, ← hstamp, FileTree.stamp_eq, hg])
        have hfg : f = g := by
          rw [hf, hp] at hsame
          exact Except.ok.inj hsame
        exact ⟨k, Nat.le_refl k, hk, FileTree.embedded_congr hpq hf (hfg ▸ hg) hvalue⟩

/-- An outcome is what was embedded in the file at a path at some moment, or why its stamp could not
be taken then. -/
def Answers (w : Timeline) (p : Path) (first last : Nat)
    (outcome : Except SongFileError (Option Embedded)) : Prop :=
  ∃ k, first ≤ k ∧ k ≤ last ∧ ((w.tree k).embedded w.reader p = outcome ∨
    ∃ cause, outcome = .error cause ∧ (w.tree k).stamp p = .error cause)

end Timeline

/-! ## Look-ups in steps -/

/-- How far a look-up has come. -/
inductive Stage where
  /-- Nothing is done yet. -/
  | begun
  /-- The file has this stamp. -/
  | stamped (stamp : Stamp)
  /-- The cache does not know what a file with this stamp holds. -/
  | missed (stamp : Stamp)
  /-- The file has been loaded. -/
  | loaded (stamp : Stamp) (value : Option Embedded)
  /-- The look-up came to an outcome at a moment. -/
  | returned (outcome : Except SongFileError (Option Embedded)) (moment : Nat)

/-- A look-up of a path that began at a moment. -/
structure Call where
  path : Path
  began : Nat
  stage : Stage

namespace Call

/-- Makes the next step of a look-up, which sees the files and the cache as they are now. -/
def step (t : FileTree) (reader : AudioReader) (now : Nat) (cache : Cache) (call : Call) :
    Call × Cache :=
  match call.stage with
  | .begun =>
    match t.stamp call.path with
    | .error cause => ({ call with stage := .returned (.error cause) now }, cache)
    | .ok stamp => ({ call with stage := .stamped stamp }, cache)
  | .stamped stamp =>
    match cache.find? call.path stamp with
    | some value => ({ call with stage := .returned (.ok value) now }, cache)
    | none => ({ call with stage := .missed stamp }, cache)
  | .missed stamp =>
    match t.embedded reader call.path with
    | .error cause => ({ call with stage := .returned (.error cause) now }, cache)
    | .ok value => ({ call with stage := .loaded stamp value }, cache)
  | .loaded stamp value =>
    ({ call with stage := .returned (.ok value) now }, cache.insert call.path stamp value)
  | .returned _ _ => (call, cache)

/-- Makes some steps of a look-up while nothing else happens. -/
def steps (t : FileTree) (reader : AudioReader) (now : Nat) : Nat → Cache → Call → Call × Cache
  | 0, cache, call => (call, cache)
  | n + 1, cache, call =>
    let (call, cache) := call.step t reader now cache
    steps t reader now n cache call

/-- **A look-up that is not interrupted is done in four steps.** -/
theorem steps_four (t : FileTree) (reader : AudioReader) (now : Nat) (cache : Cache) (p : Path) :
    steps t reader now 4 cache ⟨p, now, .begun⟩ =
      let result := cache.getOrLoad (t.stamp p) p (t.embedded reader)
      (⟨p, now, .returned result.outcome now⟩, result.cache) := by
  cases hstamp : t.stamp p with
  | error cause => simp [steps, step, Cache.getOrLoad, hstamp]
  | ok stamp =>
      cases hfind : cache.find? p stamp with
      | some value => simp [steps, step, Cache.getOrLoad, hstamp, hfind]
      | none =>
          cases hload : t.embedded reader p with
          | error cause => simp [steps, step, Cache.getOrLoad, hstamp, hfind, hload]
          | ok value => simp [steps, step, Cache.getOrLoad, hstamp, hfind, hload]

end Call

/-! ## Look-ups between other steps -/

/-- What is going on: the moment, the cache and the look-ups that have begun. -/
structure Traffic where
  now : Nat
  cache : Cache
  calls : List Call

/-- What may happen next. -/
inductive Traffic.Event where
  /-- A look-up begins. -/
  | begin (path : Path)
  /-- A look-up makes a step. -/
  | proceed (index : Nat)
  /-- The files change. -/
  | change
  /-- An entry is taken out of the cache. -/
  | invalidate (path : Path)
  /-- All entries are taken out of the cache. -/
  | clear

namespace Traffic

/-- The beginning, with a cache that is empty. -/
def init (capacity : Nat) : Traffic := ⟨0, .empty capacity, []⟩

/-- What is going on after an event. -/
def step (w : Timeline) (s : Traffic) : Event → Traffic
  | .begin p => { s with calls := s.calls ++ [⟨p, s.now, .begun⟩] }
  | .proceed i =>
    match s.calls[i]? with
    | some call =>
      let (call, cache) := call.step (w.tree s.now) w.reader s.now s.cache
      { s with cache, calls := s.calls.set i call }
    | none => s
  | .change => { s with now := s.now + 1 }
  | .invalidate p => { s with cache := s.cache.invalidate p }
  | .clear => { s with cache := s.cache.clear }

/-- What is going on after some events. -/
def run (w : Timeline) (capacity : Nat) (events : List Event) : Traffic :=
  events.foldl (step w) (init capacity)

end Traffic

/-! ## What is always true of the cache and the look-ups -/

/-- What a look-up has seen so far was there while it went on. -/
def Call.Sound (w : Timeline) (now : Nat) (call : Call) : Prop :=
  match call.stage with
  | .begun => call.began ≤ now
  | .stamped stamp | .missed stamp =>
    ∃ i, call.began ≤ i ∧ i ≤ now ∧ (w.tree i).stamp call.path = .ok stamp
  | .loaded stamp value => w.Recorded call.path stamp value call.began now
  | .returned outcome moment =>
    moment ≤ now ∧ w.Answers call.path call.began moment outcome

/-- What is kept in a cache was found in files. -/
def Cache.Sound (w : Timeline) (now : Nat) (cache : Cache) : Prop :=
  ∀ e ∈ cache.entries, ∃ p, p.components = e.1 ∧ w.Recorded p e.2.stamp e.2.value 0 now

/-- The invariant of a cache that is shared. -/
structure Traffic.Sound (w : Timeline) (s : Traffic) : Prop where
  /-- Every entry was found in a file, after its stamp was seen. -/
  cache : s.cache.Sound w s.now
  /-- Every look-up has seen what was there while it went on. -/
  calls : ∀ call ∈ s.calls, call.Sound w s.now

variable {w : Timeline} {now : Nat}

theorem Call.Sound.later {call : Call} (h : call.Sound w now) : call.Sound w (now + 1) := by
  unfold Call.Sound at h ⊢
  split at h
  · exact Nat.le_succ_of_le h
  · obtain ⟨i, hi, hnow, hstamp⟩ := h
    exact ⟨i, hi, Nat.le_succ_of_le hnow, hstamp⟩
  · obtain ⟨i, hi, hnow, hstamp⟩ := h
    exact ⟨i, hi, Nat.le_succ_of_le hnow, hstamp⟩
  · exact h.mono (Nat.le_refl _) (Nat.le_succ now)
  · exact ⟨Nat.le_succ_of_le h.1, h.2⟩

theorem Cache.Sound.later {cache : Cache} (h : cache.Sound w now) : cache.Sound w (now + 1) := by
  intro e he
  obtain ⟨p, hp, hrecord⟩ := h e he
  exact ⟨p, hp, hrecord.mono (Nat.le_refl _) (Nat.le_succ now)⟩

/-- A hit is answered by what the file held at some moment since the stamp was taken. -/
theorem Cache.Sound.answers {cache : Cache} (h : cache.Sound w now) {p : Path} {stamp : Stamp}
    {value : Option Embedded} (hfind : cache.find? p stamp = some value) {first i : Nat}
    (hfirst : first ≤ i) (hi : i ≤ now) (hstamp : (w.tree i).stamp p = .ok stamp) :
    w.Answers p first now (.ok value) := by
  obtain ⟨q, hq, hrecord⟩ := h _ (Cache.mem_of_find? hfind)
  obtain ⟨m, him, hm, hvalue⟩ := hrecord.seen hq hi hstamp
  exact ⟨m, Nat.le_trans hfirst him, hm, Or.inl hvalue⟩

/-- **A step of a look-up keeps the cache and the look-up sound.** -/
theorem Call.Sound.step {cache : Cache} {call : Call} (hcache : cache.Sound w now)
    (h : call.Sound w now) :
    (call.step (w.tree now) w.reader now cache).1.Sound w now ∧
      (call.step (w.tree now) w.reader now cache).2.Sound w now := by
  obtain ⟨p, began, stage⟩ := call
  cases stage with
  | begun =>
      have hbegan : began ≤ now := h
      rw [Call.step]
      dsimp only
      cases hstamp : (w.tree now).stamp p with
      | error cause =>
          exact ⟨⟨Nat.le_refl now, now, hbegan, Nat.le_refl now, Or.inr ⟨cause, rfl, hstamp⟩⟩,
            hcache⟩
      | ok stamp => exact ⟨⟨now, hbegan, Nat.le_refl now, hstamp⟩, hcache⟩
  | stamped stamp =>
      obtain ⟨i, hbegan, hi, hstamp⟩ := h
      rw [Call.step]
      dsimp only
      cases hfind : cache.find? p stamp with
      | some value => exact ⟨⟨Nat.le_refl now, hcache.answers hfind hbegan hi hstamp⟩, hcache⟩
      | none => exact ⟨⟨i, hbegan, hi, hstamp⟩, hcache⟩
  | missed stamp =>
      obtain ⟨i, hbegan, hi, hstamp⟩ := h
      rw [Call.step]
      dsimp only
      cases hload : (w.tree now).embedded w.reader p with
      | error cause =>
          exact ⟨⟨Nat.le_refl now, now, Nat.le_trans hbegan hi, Nat.le_refl now, Or.inl hload⟩,
            hcache⟩
      | ok value => exact ⟨⟨i, now, hbegan, hi, Nat.le_refl now, hstamp, hload⟩, hcache⟩
  | loaded stamp value =>
      -- what is kept may be old by now, but it was there while this look-up went on
      have hrecord : w.Recorded p stamp value began now := h
      constructor
      · obtain ⟨i, j, hbegan, hij, hj, -, hvalue⟩ := hrecord
        exact ⟨Nat.le_refl now, j, Nat.le_trans hbegan hij, hj, Or.inl hvalue⟩
      · intro e he
        rcases Cache.mem_insert he with he | rfl
        · exact hcache e he
        · exact ⟨p, rfl, hrecord.mono (Nat.zero_le began) (Nat.le_refl now)⟩
  | returned outcome moment => exact ⟨h, hcache⟩

namespace Traffic

theorem sound_init (w : Timeline) (capacity : Nat) : (init capacity).Sound w where
  cache := by intro e he; exact absurd he (by simp [init, Cache.empty])
  calls := by intro call hcall; exact absurd hcall (by simp [init])

/-- **Every event keeps the invariant.** -/
theorem sound_step {s : Traffic} (h : s.Sound w) (event : Event) : (s.step w event).Sound w := by
  cases event with
  | begin p =>
      refine ⟨h.cache, fun call hcall => ?_⟩
      rcases List.mem_append.mp hcall with hcall | hcall
      · exact h.calls call hcall
      · rw [List.mem_singleton.mp hcall]
        exact Nat.le_refl s.now
  | proceed i =>
      cases hcall : s.calls[i]? with
      | none =>
          rw [step, hcall]
          exact h
      | some call =>
          rw [step, hcall]
          have hstep := (h.calls call (List.mem_of_getElem? hcall)).step h.cache
          refine ⟨hstep.2, fun call' hcall' => ?_⟩
          rcases List.mem_or_eq_of_mem_set hcall' with hcall' | rfl
          · exact h.calls call' hcall'
          · exact hstep.1
  | change => exact ⟨h.cache.later, fun call hcall => (h.calls call hcall).later⟩
  | invalidate p => exact ⟨fun e he => h.cache e (Cache.mem_invalidate he), h.calls⟩
  | clear => exact ⟨fun e he => absurd he (by simp [step, Cache.clear]), h.calls⟩

theorem sound_run (w : Timeline) (capacity : Nat) (events : List Event) :
    (run w capacity events).Sound w := by
  have hfoldl : ∀ s : Traffic, s.Sound w → (events.foldl (step w) s).Sound w := by
    induction events with
    | nil => exact fun s h => h
    | cons event events ih => exact fun s h => ih _ (sound_step h event)
  exact hfoldl _ (sound_init w capacity)

/-- A look-up that begins and goes on while nothing else happens. -/
def lookUp (s : Traffic) (p : Path) : List Event :=
  .begin p :: List.replicate 4 (.proceed s.calls.length)

/-- The last look-up goes on. -/
theorem foldl_proceed (w : Timeline) (now n : Nat) (calls : List Call) (cache : Cache)
    (call : Call) :
    (List.replicate n (.proceed calls.length)).foldl (step w) ⟨now, cache, calls ++ [call]⟩ =
      let (call, cache) := call.steps (w.tree now) w.reader now n cache
      ⟨now, cache, calls ++ [call]⟩ := by
  induction n generalizing cache call with
  | zero => rfl
  | succ n ih =>
      have hstep : step w ⟨now, cache, calls ++ [call]⟩ (.proceed calls.length) =
          ⟨now, (call.step (w.tree now) w.reader now cache).2,
            calls ++ [(call.step (w.tree now) w.reader now cache).1]⟩ := by
        simp [step]
      rw [List.replicate_succ, List.foldl_cons, hstep, ih]
      rfl

/-- **A look-up that nothing comes between is one of the cache alone.** -/
theorem run_lookUp (w : Timeline) (capacity : Nat) (events : List Event) (p : Path) :
    let s := run w capacity events
    let result := s.cache.getOrLoad ((w.tree s.now).stamp p) p ((w.tree s.now).embedded w.reader)
    run w capacity (events ++ s.lookUp p) =
      ⟨s.now, result.cache, s.calls ++ [⟨p, s.now, .returned result.outcome s.now⟩]⟩ := by
  intro s result
  have hbegin : s.step w (.begin p) = ⟨s.now, s.cache, s.calls ++ [⟨p, s.now, .begun⟩]⟩ := rfl
  rw [run, List.foldl_append, lookUp, List.foldl_cons]
  show (List.replicate 4 (Event.proceed s.calls.length)).foldl (step w) (s.step w (.begin p)) = _
  rw [hbegin, foldl_proceed, Call.steps_four]

/-- **A shared cache never serves stale data.** Whatever happens in whatever order, an entry whose
stamp is that of its file now has the data of the file now, and every look-up that is done came to
what was embedded in its file at some moment between its beginning and its end. A look-up that
nothing comes between is one of the cache alone. -/
theorem run_neverStale (w : Timeline) (capacity : Nat) (events : List Event) :
    let s := run w capacity events
    (∀ e ∈ s.cache.entries, ∀ p : Path, p.components = e.1 →
      (w.tree s.now).stamp p = .ok e.2.stamp → (w.tree s.now).embedded w.reader p = .ok e.2.value) ∧
    (∀ call ∈ s.calls, ∀ outcome moment, call.stage = .returned outcome moment →
      moment ≤ s.now ∧ w.Answers call.path call.began moment outcome) ∧
    (∀ p : Path,
      let result := s.cache.getOrLoad ((w.tree s.now).stamp p) p ((w.tree s.now).embedded w.reader)
      run w capacity (events ++ s.lookUp p) =
        ⟨s.now, result.cache, s.calls ++ [⟨p, s.now, .returned result.outcome s.now⟩]⟩) := by
  intro s
  have hsound := sound_run w capacity events
  refine ⟨?_, ?_, run_lookUp w capacity events⟩
  · intro e he p hp hstamp
    obtain ⟨q, hq, hrecord⟩ := hsound.cache e he
    obtain ⟨m, hnow, hm, hvalue⟩ := hrecord.seen (hq.trans hp.symm) (Nat.le_refl s.now) hstamp
    rw [Nat.le_antisymm hm hnow] at hvalue
    exact hvalue
  · intro call hcall outcome moment hstage
    have hcallSound := hsound.calls call hcall
    rw [Call.Sound, hstage] at hcallSound
    exact hcallSound

/-- A file with data, and the same file written again with other data. It holds no audio, so the
library cannot read it. -/
def rewritten : Timeline :=
  let file (data : String) (moment : Int) : File :=
    ⟨[], some (.ofComments [⟨"eng", "", data⟩]), .given moment⟩
  let tree (f : File) : FileTree := ⟨[(["m"], .folder), (["m", "a"], .file f)], 0, ["m"]⟩
  let first := file "\x7b\"t\":false\x7d" 1
  let second := file "\x7b\"t\":true\x7d" 2
  { reader := ⟨fun _ _ => none⟩
    tree
      | 0 => tree first
      | _ + 1 => tree second
    change
      | 0 => by
        have hwrite : (tree first).writeFile ⟨"a"⟩ second = .ok (tree second) := by decide +kernel
        have hstamp : (tree first).stamp ⟨"a"⟩ ≠ .ok (Entry.file second).stamp := by decide +kernel
        refine Or.inr ⟨⟨"a"⟩, second, ⟨tree second, 0, hwrite, rfl⟩, fun k hk => ?_⟩
        rw [Nat.le_zero.mp hk]
        exact hstamp
      | _ + 1 => Or.inl rfl }

theorem embedded_rewritten :
    (rewritten.tree 1).embedded rewritten.reader ⟨"a"⟩ =
      .ok (some ⟨"", [("t", .bool true)]⟩) := by
  have hfile : (rewritten.tree 1).file ⟨"a"⟩ =
      .ok ⟨[], some (.ofComments [⟨"eng", "", "\x7b\"t\":true\x7d"⟩]), .given 2⟩ := by
    decide +kernel
  rw [FileTree.embedded_of_file hfile]
  show Except.mapError _ (File.tagData? _) = _
  rw [File.tagData?_of_readTag rfl]
  refine congrArg Except.ok ?_
  rfl

/-- The file is written between the stamp and the load of one look-up: the entry has the old stamp
and the new data, and the next look-up does not use it. -/
theorem run_neverStale_rewritten :
    let events := [.begin ⟨"a"⟩, .proceed 0, .change, .proceed 0, .proceed 0, .proceed 0,
      .begin ⟨"a"⟩, .proceed 1, .proceed 1]
    let s := run rewritten 1 events
    s.cache.find? ⟨"a"⟩ (.file 36 (.given 1)) = some (some ⟨"", [("t", .bool true)]⟩) ∧
    s.calls = [⟨⟨"a"⟩, 0, .returned (.ok (some ⟨"", [("t", .bool true)]⟩)) 1⟩,
      ⟨⟨"a"⟩, 1, .missed (.file 35 (.given 2))⟩] ∧
    ∀ e ∈ s.cache.entries, ∀ p : Path, p.components = e.1 →
      (rewritten.tree s.now).stamp p = .ok e.2.stamp →
      (rewritten.tree s.now).embedded rewritten.reader p = .ok e.2.value := by
  intro events s
  have hold : (rewritten.tree 0).stamp ⟨"a"⟩ = .ok (.file 36 (.given 1)) := by decide +kernel
  have hnew : (rewritten.tree 1).stamp ⟨"a"⟩ = .ok (.file 35 (.given 2)) := by decide +kernel
  have hcomponents : Path.components ⟨"a"⟩ = [.name "a"] := rfl
  have hrun : s = ⟨1, ⟨1, [([.name "a"],
      ⟨.file 36 (.given 1), some ⟨"", [("t", .bool true)]⟩⟩)], [[.name "a"]]⟩,
      [⟨⟨"a"⟩, 0, .returned (.ok (some ⟨"", [("t", .bool true)]⟩)) 1⟩,
        ⟨⟨"a"⟩, 1, .missed (.file 35 (.given 2))⟩]⟩ := by
    simp [s, events, run, init, step, Call.step, Cache.empty, Cache.find?, Cache.insert,
      Cache.evict, Assoc.find?, Assoc.put, hold, hnew, hcomponents, embedded_rewritten]
  refine ⟨?_, ?_, (run_neverStale rewritten 1 events).1⟩
  · rw [hrun]
    simp [Cache.find?, Assoc.find?, hcomponents]
  · rw [hrun]

end Traffic

end SongLibrary
