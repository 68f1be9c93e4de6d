import SongLibrary.Proofs.Files.Cache
import Mathlib.Data.List.Induction

/-!
# The age of what is in a cache

A cache has two parts that have to go together: the map of its entries, and the queue of their keys.
`InStep` says how. It is what makes taking the oldest entries out come to an end at the right place:
every key of the queue is that of an entry, so each one that goes makes room for one.

`ledger` is the cache as one list, the entries from the oldest to the youngest. Answering a request
does to the ledger what `answerLedger` says, and `run_aging` draws from this what any requests leave
behind: a new path is the youngest, and it takes at most the place of the oldest one; a path that is
loaded again keeps its place; and an error changes nothing.

How long a path has been there is said by the requests alone, in `Outlasts`, and not by the queue.
-/

namespace SongLibrary

namespace Cache

/-! ## Requests -/

/-- What is asked of a cache. A path is looked up with the stamp its file has, or the reason why it
has none, and with what loads it. -/
inductive Request where
  | lookUp (p : Path) (stamp : Except SongFileError Stamp)
      (load : Path → Except SongFileError (Option Embedded))
  | invalidate (p : Path)
  | clear

/-- The cache after a request. -/
def answer (c : Cache) : Request → Cache
  | .lookUp p stamp load => (c.getOrLoad stamp p load).cache
  | .invalidate p => c.invalidate p
  | .clear => c.clear

/-- The cache after some requests, empty before them. -/
def run (capacity : Nat) (requests : List Request) : Cache := requests.foldl answer (empty capacity)

theorem run_append (capacity : Nat) (requests : List Request) (request : Request) :
    run capacity (requests ++ [request]) = (run capacity requests).answer request := by
  rw [run, List.foldl_append]
  rfl

/-! ## The cache as one list -/

/-- The entries from the oldest to the youngest. -/
def ledger (c : Cache) : Assoc (List Path.Component) CacheEntry :=
  c.queue.filterMap fun key => (Assoc.find? c.entries key).map fun e => (key, e)

/-- Entries with one more. A path that is there keeps its place; a new one goes to the end, and the
first one makes room for it if there is none. -/
def putLedger (room : Nat) (entries : Assoc (List Path.Component) CacheEntry)
    (key : List Path.Component) (e : CacheEntry) : Assoc (List Path.Component) CacheEntry :=
  if key ∈ Assoc.keys entries then Assoc.put entries key e
  else (if entries.length < room then entries else entries.tail) ++ [(key, e)]

/-- What becomes of the entries. -/
def answerLedger (room : Nat) (entries : Assoc (List Path.Component) CacheEntry) :
    Request → Assoc (List Path.Component) CacheEntry
  | .lookUp p stamp load =>
    match stamp with
    | .error _ => entries
    | .ok stamp =>
      if (Assoc.find? entries p.components).any (·.stamp = stamp) then entries
      else
        match load p with
        | .error _ => entries
        | .ok value => putLedger room entries p.components ⟨stamp, value⟩
  | .invalidate p => Assoc.erase entries p.components
  | .clear => []

/-! ## Map and queue go together -/

/-- What the map and the queue of a cache have to do with each other. -/
structure InStep (c : Cache) : Prop where
  /-- There is room for an entry. -/
  room : 1 ≤ c.capacity
  /-- The queue has the keys of the entries, in the order in which the map got them. -/
  queue : c.queue = Assoc.keys c.entries
  /-- No key is there twice. -/
  distinct : (Assoc.keys c.entries).Nodup
  /-- There are not too many entries. -/
  size : c.entries.length ≤ c.capacity

theorem inStep_empty (capacity : Nat) : (empty capacity).InStep where
  room := Nat.le_max_right capacity 1
  queue := rfl
  distinct := List.nodup_nil
  size := Nat.zero_le _

namespace InStep

variable {c : Cache}

theorem ledger_eq (h : c.InStep) : c.ledger = c.entries := by
  rw [ledger, h.queue]
  exact Assoc.filterMap_find?_keys h.distinct

theorem length_queue (h : c.InStep) : c.queue.length = c.size := by
  rw [h.queue, Assoc.length_keys, Cache.size]

theorem mem_queue (h : c.InStep) {key : List Path.Component} :
    key ∈ c.queue ↔ (Assoc.find? c.entries key).isSome := by
  rw [h.queue, Option.isSome_iff_ne_none, ne_eq, Assoc.find?_eq_none_iff, not_not]

end InStep

/-- **Taking the oldest entries out leaves the youngest ones.** -/
theorem evict_keys {capacity : Nat} {entries : Assoc (List Path.Component) CacheEntry}
    (h : (Assoc.keys entries).Nodup) :
    evict capacity entries (Assoc.keys entries) =
      (entries.drop (entries.length - capacity),
        Assoc.keys (entries.drop (entries.length - capacity))) := by
  induction entries with
  | nil => simp [Assoc.keys, evict]
  | cons e rest ih =>
      obtain ⟨key, value⟩ := e
      rw [Assoc.keys_cons, List.nodup_cons] at h
      rw [Assoc.keys_cons, evict]
      split
      · rename_i hfull
        -- the oldest key is that of an entry, so one entry goes with it
        rw [Assoc.erase_head h.1, ih h.2]
        rw [List.length_cons] at hfull ⊢
        rw [show rest.length + 1 - capacity = rest.length - capacity + 1 by omega,
          List.drop_succ_cons]
      · rename_i hroom
        rw [Nat.sub_eq_zero_of_le (Nat.not_lt.mp hroom)]
        rfl

/-! ## One request -/

/-- What is put is put into the map, and then the oldest entries go. -/
theorem putLedger_eq {room : Nat} {entries : Assoc (List Path.Component) CacheEntry}
    (hroom : 1 ≤ room) (hsize : entries.length ≤ room) (key : List Path.Component)
    (e : CacheEntry) :
    putLedger room entries key e =
      (Assoc.put entries key e).drop ((Assoc.put entries key e).length - room) := by
  rw [putLedger]
  by_cases hkey : key ∈ Assoc.keys entries
  · have hlength := congrArg List.length (Assoc.keys_put entries key e)
    rw [if_pos hkey, Assoc.keys, Assoc.keys, List.length_map, List.length_map] at hlength
    rw [if_pos hkey, hlength, Nat.sub_eq_zero_of_le hsize, List.drop_zero]
  · rw [if_neg hkey, Assoc.put_of_notMem hkey, List.length_append, List.length_singleton]
    by_cases hfits : entries.length < room
    · rw [if_pos hfits, Nat.sub_eq_zero_of_le hfits, List.drop_zero]
    · -- there is no room left, and one entry is enough to make some
      rw [if_neg hfits, show entries.length + 1 - room = 1 by omega,
        List.drop_append_of_le_length (by omega), List.drop_one]

section

variable {c : Cache} (h : c.InStep)
include h

/-- What is put into a cache is put into its ledger. -/
theorem InStep.insert_eq (p : Path) (stamp : Stamp) (value : Option Embedded) :
    c.insert p stamp value =
      let entries := putLedger c.capacity c.entries p.components ⟨stamp, value⟩
      ⟨c.capacity, entries, Assoc.keys entries⟩ := by
  have hqueue : (if (Assoc.find? c.entries p.components).isSome then c.queue
      else c.queue ++ [p.components]) =
      Assoc.keys (Assoc.put c.entries p.components ⟨stamp, value⟩) := by
    rw [Assoc.keys_put, ← h.queue]
    by_cases hkey : p.components ∈ c.queue
    · rw [if_pos (h.mem_queue.mp hkey), if_pos hkey]
    · rw [if_neg (mt h.mem_queue.mpr hkey), if_neg hkey]
  have hdistinct := Assoc.nodup_keys_put h.distinct p.components ⟨stamp, value⟩
  rw [insert]
  dsimp only
  rw [hqueue, evict_keys hdistinct, putLedger_eq h.room h.size]

/-- What a request does to a cache is what it does to its ledger. -/
theorem InStep.answer_eq (request : Request) :
    c.answer request =
      let entries := answerLedger c.capacity c.entries request
      ⟨c.capacity, entries, Assoc.keys entries⟩ := by
  have hsame : c = ⟨c.capacity, c.entries, Assoc.keys c.entries⟩ := by rw [← h.queue]
  cases request with
  | lookUp p stamp load =>
      unfold answer getOrLoad answerLedger
      cases stamp with
      | error cause => exact hsame
      | ok stamp =>
          dsimp only
          rw [find?]
          cases hfind : Assoc.find? c.entries p.components with
          | none =>
              cases load p with
              | error cause => exact hsame
              | ok value => exact h.insert_eq p stamp value
          | some e =>
              by_cases hstamp : e.stamp = stamp
              · simpa [hstamp] using hsame
              · cases load p with
                | error cause => simpa [hstamp] using hsame
                | ok value => simpa [hstamp] using h.insert_eq p stamp value
  | invalidate p =>
      rw [answer, answerLedger, invalidate]
      dsimp only
      rw [Assoc.keys_erase, h.queue]
      split
      · rfl
      · rename_i hmissing
        have hkey : p.components ∉ Assoc.keys c.entries := by
          rw [← h.queue, h.mem_queue]
          exact hmissing
        rw [← Assoc.keys_erase, Assoc.erase_of_notMem hkey]
        exact hsame
  | clear => rfl

end

/-- **A new path takes at most the place of the oldest one.** -/
theorem putLedger_new {room : Nat} {entries : Assoc (List Path.Component) CacheEntry}
    {key : List Path.Component} (hdistinct : (Assoc.keys entries).Nodup) (hroom : 1 ≤ room)
    (hkey : key ∉ Assoc.keys entries) (e : CacheEntry) :
    ∃ gone kept, Assoc.keys entries = gone ++ kept ∧
      gone.length = (if entries.length < room then 0 else 1) ∧
      Assoc.keys (putLedger room entries key e) = kept ++ [key] ∧
      ∀ key', Assoc.find? (putLedger room entries key e) key' =
        if key' = key then some e else if key' ∈ gone then none else Assoc.find? entries key' := by
  rw [putLedger, if_neg hkey]
  by_cases hfits : entries.length < room
  · rw [if_pos hfits, if_pos hfits, ← Assoc.put_of_notMem hkey]
    refine ⟨[], Assoc.keys entries, rfl, rfl, ?_, fun key' => ?_⟩
    · rw [Assoc.keys_put, if_neg hkey]
    · rw [Assoc.find?_put]
      simp only [eq_comm, List.not_mem_nil, if_false]
  · rw [if_neg hfits, if_neg hfits]
    cases entries with
    | nil => exact absurd hroom hfits
    | cons oldest rest =>
        obtain ⟨old, eOld⟩ := oldest
        rw [Assoc.keys_cons, List.nodup_cons] at hdistinct
        rw [Assoc.keys_cons, List.mem_cons, not_or] at hkey
        rw [List.tail_cons, ← Assoc.put_of_notMem hkey.2]
        refine ⟨[old], Assoc.keys rest, rfl, rfl, ?_, fun key' => ?_⟩
        · rw [Assoc.keys_put, if_neg hkey.2]
        · -- the rest is what is left when the oldest key is taken out
          have hrest := Assoc.find?_erase ((old, eOld) :: rest) old key'
          rw [Assoc.erase_head hdistinct.1] at hrest
          rw [Assoc.find?_put, hrest]
          simp only [eq_comm, List.mem_singleton]

/-- The keys after a request are keys from before it, and at most a new one behind them. -/
theorem keys_answerLedger_cases {room : Nat} {entries : Assoc (List Path.Component) CacheEntry}
    (hdistinct : (Assoc.keys entries).Nodup) (hroom : 1 ≤ room) (hsize : entries.length ≤ room)
    (request : Request) :
    ∃ kept, kept.Sublist (Assoc.keys entries) ∧
      (Assoc.keys (answerLedger room entries request) = kept ∨
        ∃ key, key ∉ Assoc.keys entries ∧ kept.length < room ∧
          Assoc.keys (answerLedger room entries request) = kept ++ [key]) := by
  cases request with
  | lookUp p stamp load =>
      unfold answerLedger
      cases stamp with
      | error cause => exact ⟨_, List.Sublist.refl _, Or.inl rfl⟩
      | ok stamp =>
          dsimp only
          split
          · exact ⟨_, List.Sublist.refl _, Or.inl rfl⟩
          · cases load p with
            | error cause => exact ⟨_, List.Sublist.refl _, Or.inl rfl⟩
            | ok value =>
                by_cases hkey : p.components ∈ Assoc.keys entries
                · refine ⟨_, List.Sublist.refl _, Or.inl ?_⟩
                  dsimp only
                  rw [putLedger, if_pos hkey, Assoc.keys_put, if_pos hkey]
                · obtain ⟨gone, kept, hkeys, hgone, hput, -⟩ :=
                    putLedger_new hdistinct hroom hkey ⟨stamp, value⟩
                  refine ⟨kept, ?_, Or.inr ⟨_, hkey, ?_, hput⟩⟩
                  · rw [hkeys]
                    exact List.sublist_append_right gone kept
                  · have hlength := congrArg List.length hkeys
                    rw [Assoc.length_keys, List.length_append, hgone] at hlength
                    split at hlength <;> omega
  | invalidate p => exact ⟨_, List.filter_sublist, Or.inl (Assoc.keys_erase entries p.components)⟩
  | clear => exact ⟨[], List.nil_sublist _, Or.inl rfl⟩

/-- **Every request leaves map and queue in step.** -/
theorem inStep_answer {c : Cache} (h : c.InStep) (request : Request) :
    (c.answer request).InStep := by
  obtain ⟨kept, hkept, hkeys⟩ := keys_answerLedger_cases h.distinct h.room h.size request
  have hnodup : kept.Nodup := h.distinct.sublist hkept
  have hlength : kept.length ≤ c.capacity := by
    have hkeys := Assoc.length_keys c.entries
    exact Nat.le_trans (hkeys ▸ hkept.length_le) h.size
  rw [h.answer_eq request]
  rcases hkeys with hkeys | ⟨key, hnew, hroom, hkeys⟩
  · refine ⟨h.room, rfl, hkeys ▸ hnodup, ?_⟩
    rw [← Assoc.length_keys, hkeys]
    exact hlength
  · refine ⟨h.room, rfl, ?_, ?_⟩
    · dsimp only
      rw [hkeys, List.nodup_append]
      refine ⟨hnodup, by simp, fun a ha b hb => ?_⟩
      rw [List.mem_singleton.mp hb]
      exact ne_of_mem_of_not_mem (hkept.subset ha) hnew
    · rw [← Assoc.length_keys, hkeys, List.length_append]
      exact hroom

/-! ## Any requests -/

theorem run_inStep (capacity : Nat) (requests : List Request) :
    (run capacity requests).InStep ∧ (run capacity requests).capacity = max capacity 1 := by
  induction requests using List.reverseRecOn with
  | nil => exact ⟨inStep_empty capacity, rfl⟩
  | append_singleton requests request ih =>
      rw [run_append]
      refine ⟨inStep_answer ih.1 request, ?_⟩
      rw [ih.1.answer_eq request]
      exact ih.2

/-- **The ledger of a cache is what the requests make of a list.** -/
theorem ledger_run (capacity : Nat) (requests : List Request) :
    (run capacity requests).ledger = requests.foldl (answerLedger (max capacity 1)) [] := by
  induction requests using List.reverseRecOn with
  | nil => rfl
  | append_singleton requests request ih =>
      obtain ⟨hstep, hcapacity⟩ := run_inStep capacity requests
      have hnext := (run_inStep capacity (requests ++ [request])).1
      rw [List.foldl_append, ← ih, hnext.ledger_eq, hstep.ledger_eq, run_append,
        hstep.answer_eq request, hcapacity]
      rfl

/-- One path has been there since before another one came: at some moment it was there and the
other was not, and ever since it has been there. -/
def Outlasts (capacity : Nat) (requests : List Request) (a b : List Path.Component) : Prop :=
  ∃ i ≤ requests.length, b ∉ Assoc.keys (run capacity (requests.take i)).entries ∧
    ∀ j, i ≤ j → j ≤ requests.length → a ∈ Assoc.keys (run capacity (requests.take j)).entries

/-- A path that is still there after one more request is still older than another. -/
theorem Outlasts.append {capacity : Nat} {requests : List Request} {a b : List Path.Component}
    (h : Outlasts capacity requests a b) {request : Request}
    (ha : a ∈ Assoc.keys (run capacity (requests ++ [request])).entries) :
    Outlasts capacity (requests ++ [request]) a b := by
  obtain ⟨i, hi, hb, hsince⟩ := h
  have hlength : (requests ++ [request]).length = requests.length + 1 := by simp
  refine ⟨i, by omega, ?_, fun j hij hj => ?_⟩
  · rw [List.take_append_of_le_length hi]
    exact hb
  · by_cases hlast : j ≤ requests.length
    · rw [List.take_append_of_le_length hlast]
      exact hsince j hij hlast
    · rw [List.take_of_length_le (by omega)]
      exact ha

/-- A path that comes is younger than all that are there. -/
theorem outlasts_new {capacity : Nat} {requests : List Request} {request : Request}
    {a key : List Path.Component} (hkey : key ∉ Assoc.keys (run capacity requests).entries)
    (ha : a ∈ Assoc.keys (run capacity requests).entries)
    (ha' : a ∈ Assoc.keys (run capacity (requests ++ [request])).entries) :
    Outlasts capacity (requests ++ [request]) a key := by
  have hnow : Outlasts capacity requests a key := by
    refine ⟨requests.length, Nat.le_refl _, ?_, fun j hj hj' => ?_⟩
    · rw [List.take_length]
      exact hkey
    · rw [Nat.le_antisymm hj' hj, List.take_length]
      exact ha
  exact hnow.append ha'

/-- **The queue goes from the oldest to the youngest.** -/
theorem queue_run_pairwise (capacity : Nat) (requests : List Request) :
    (run capacity requests).queue.Pairwise (Outlasts capacity requests) := by
  induction requests using List.reverseRecOn with
  | nil => exact List.Pairwise.nil
  | append_singleton requests request ih =>
      obtain ⟨hstep, -⟩ := run_inStep capacity requests
      have hnext := (run_inStep capacity (requests ++ [request])).1
      have hentries : Assoc.keys (run capacity (requests ++ [request])).entries =
          Assoc.keys (answerLedger (run capacity requests).capacity
            (run capacity requests).entries request) := by
        rw [run_append, hstep.answer_eq request]
      obtain ⟨kept, hkept, hkeys⟩ :=
        keys_answerLedger_cases hstep.distinct hstep.room hstep.size request
      rw [← hentries] at hkeys
      rw [hstep.queue] at ih
      rw [hnext.queue]
      rcases hkeys with hkeys | ⟨key, hnew, -, hkeys⟩
      · rw [hkeys]
        refine (ih.sublist hkept).imp_of_mem fun ha _ hab => hab.append ?_
        rw [hkeys]
        exact ha
      · have hin : ∀ a ∈ kept, a ∈ Assoc.keys (run capacity (requests ++ [request])).entries := by
          intro a ha
          rw [hkeys]
          exact List.mem_append_left _ ha
        rw [hkeys, List.pairwise_append]
        refine ⟨(ih.sublist hkept).imp_of_mem fun ha _ hab => hab.append (hin _ ha), by simp, ?_⟩
        intro a ha b hb
        rw [List.mem_singleton.mp hb]
        exact outlasts_new hnew (hkept.subset ha) (hin a ha)

/-! ## The next request -/

/-- What a cache with room for some entries does with the next request. -/
structure Orderly (room : Nat) (c : Cache) : Prop where
  /-- An entry with the stamp of its file is the answer, and the loader is not asked. -/
  hit : ∀ p stamp load e, Assoc.find? c.entries p.components = some e → e.stamp = stamp →
    c.getOrLoad (.ok stamp) p load = ⟨.ok e.value, false, c⟩
  /-- Without a stamp nothing changes. -/
  unstamped : ∀ p cause load, c.getOrLoad (.error cause) p load = ⟨.error cause, false, c⟩
  /-- Nor does anything if the loader fails. -/
  unloaded : ∀ p stamp load cause, c.find? p stamp = none → load p = .error cause →
    c.getOrLoad (.ok stamp) p load = ⟨.error cause, true, c⟩
  /-- A new path is the youngest. The oldest one goes if there was no room, and no other one. -/
  new : ∀ p stamp load value, p.components ∉ c.queue → load p = .ok value →
    ∃ c' gone kept, c.getOrLoad (.ok stamp) p load = ⟨.ok value, true, c'⟩ ∧
      c.queue = gone ++ kept ∧ gone.length = (if c.size < room then 0 else 1) ∧
      c'.queue = kept ++ [p.components] ∧
      ∀ key, Assoc.find? c'.entries key =
        if key = p.components then some ⟨stamp, value⟩
        else if key ∈ gone then none else Assoc.find? c.entries key
  /-- A path that is there, with another stamp, gets a new stamp and value and keeps its age. -/
  reload : ∀ p stamp load value, p.components ∈ c.queue → c.find? p stamp = none →
    load p = .ok value →
    ∃ c', c.getOrLoad (.ok stamp) p load = ⟨.ok value, true, c'⟩ ∧ c'.queue = c.queue ∧
      ∀ key, Assoc.find? c'.entries key =
        if key = p.components then some ⟨stamp, value⟩ else Assoc.find? c.entries key
  /-- A path that is taken out is the only one that goes, and the others keep their order. -/
  invalidate : ∀ p, (c.invalidate p).queue = c.queue.filter (· ≠ p.components) ∧
    ∀ key, Assoc.find? (c.invalidate p).entries key =
      if key = p.components then none else Assoc.find? c.entries key
  /-- Everything may be taken out at once. -/
  clear : c.clear.queue = [] ∧ ∀ key, Assoc.find? c.clear.entries key = none

/-- What is loaded is put into the cache. -/
theorem getOrLoad_miss {c : Cache} {p : Path} {stamp : Stamp} {value : Option Embedded}
    {load : Path → Except SongFileError (Option Embedded)} (hmiss : c.find? p stamp = none)
    (hload : load p = .ok value) :
    c.getOrLoad (.ok stamp) p load = ⟨.ok value, true, c.insert p stamp value⟩ := by
  unfold getOrLoad
  simp only [hmiss, hload]

/-- A cache whose map and queue are in step is orderly. -/
theorem InStep.orderly {c : Cache} (h : c.InStep) : c.Orderly c.capacity where
  hit p stamp load e he hstamp := by
    have hfind : c.find? p stamp = some e.value := by rw [find?, he]; exact if_pos hstamp
    unfold getOrLoad
    simp only [hfind]
  unstamped p cause load := rfl
  unloaded p stamp load cause hmiss hload := by
    unfold getOrLoad
    simp only [hmiss, hload]
  new p stamp load value hnew hload := by
    have hmiss : c.find? p stamp = none := by
      rw [h.mem_queue, Option.not_isSome_iff_eq_none] at hnew
      rw [find?, hnew]
    rw [h.queue] at hnew ⊢
    obtain ⟨gone, kept, hkeys, hgone, hqueue, hfind⟩ :=
      putLedger_new h.distinct h.room hnew ⟨stamp, value⟩
    refine ⟨_, gone, kept, getOrLoad_miss hmiss hload, hkeys, hgone, ?_⟩
    rw [h.insert_eq]
    exact ⟨hqueue, hfind⟩
  reload p stamp load value hold hmiss hload := by
    rw [h.queue] at hold ⊢
    refine ⟨_, getOrLoad_miss hmiss hload, ?_⟩
    rw [h.insert_eq]
    dsimp only
    rw [putLedger, if_pos hold, Assoc.keys_put, if_pos hold]
    refine ⟨rfl, fun key => ?_⟩
    rw [Assoc.find?_put]
    simp only [eq_comm]
  invalidate p := by
    have hanswer := h.answer_eq (.invalidate p)
    rw [answer] at hanswer
    rw [hanswer, h.queue]
    refine ⟨Assoc.keys_erase c.entries p.components, fun key => ?_⟩
    rw [answerLedger, Assoc.find?_erase]
    simp only [eq_comm]
  clear := ⟨rfl, fun _ => rfl⟩

/-- **A cache is a bounded list of entries in the order in which their paths came.** Whatever was
asked of it, its ledger is what the requests make of a list, the queue has the keys of the entries,
each once and the oldest first, there are never too many, and the next request does what it should.
No room counts as room for one entry. -/
theorem run_orderly (capacity : Nat) (requests : List Request) :
    let c := run capacity requests
    c.ledger = requests.foldl (answerLedger (max capacity 1)) [] ∧
    c.queue.Nodup ∧ (∀ key, key ∈ c.queue ↔ (Assoc.find? c.entries key).isSome) ∧
    c.queue.Pairwise (Outlasts capacity requests) ∧
    c.queue.length = c.size ∧ c.size ≤ max capacity 1 ∧ c.Orderly (max capacity 1) := by
  intro c
  obtain ⟨hstep, hcapacity⟩ := run_inStep capacity requests
  refine ⟨ledger_run capacity requests, ?_, fun key => hstep.mem_queue,
    queue_run_pairwise capacity requests, hstep.length_queue, ?_, ?_⟩
  · rw [hstep.queue]
    exact hstep.distinct
  · rw [← hcapacity]
    exact hstep.size
  · rw [← hcapacity]
    exact hstep.orderly

end Cache

end SongLibrary
