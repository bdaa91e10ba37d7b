import PDS.Cpp.GrepRun

/-!
# The program ends

Every turn leaves less to do (`Process.left`), and as long as the process has not ended somebody has a turn, so that every
run comes to an end. How it ends depends on the tree alone, unless a thread cannot be created (`Verdict`).
-/

namespace PDS.Cpp
open Pool Journal

/-- The turns that the search of a file takes. -/
def searchLength (contents : List Char → Option (List Char)) (file : List Char) : Nat :=
  Searcher.opening.left file (fileLength contents file)

/-- The turns that a directory takes, with those of its searches. -/
def Listing.turns (contents : List Char → Option (List Char)) (dirName : List Char) : Listing → Nat
  | .done => 3
  | .file name next => next.turns contents dirName + searchLength contents (filePath dirName name) + 5
  | .dir name sub next => sub.turns contents (filePath dirName name) + next.turns contents dirName + 1

/-- The turns that calls of `execute` take. -/
def callTurns (contents : List Char → Option (List Char)) (calls : List Frame) : Nat :=
  (calls.map fun f => f.rest.turns contents f.dirName).sum

/-- The turns of the main thread outside of the methods of a pool for `m` searches, and those that will be in them. -/
def Walk.left (contents : List Char → Option (List Char)) (m : Nat) : Walk → Nat
  | .looking calls => callTurns contents calls + m + 4
  | .adding calls | .waiting calls => callTurns contents calls + m + 5
  | .returned _ => m + 3
  | .leaving _ => 1
  | .exited _ | .aborted => 0

/-- The turns that are left in a method of the pool, with those of the thread that it creates. -/
def Pool.State.left (contents : List Char → Option (List Char)) (s : Pool.State) : Nat :=
  match s.pc with
  | .waiting search => searchLength contents search.1 + 3
  | .closing search _ => searchLength contents search.1 + 2
  | .creating search => searchLength contents search.1 + 1
  | .waitingAll => 1
  | .destroying => s.pool.size + 1
  | .idle | .destroyed | .fault => 0

namespace Process

/-- The turns that a thread has left. -/
def threadLeft (contents : List Char → Option (List Char)) (s : Process) (t : Nat) : Nat :=
  if t ∈ s.pool.win.finished then 0 else (s.searcher t).left (s.file t) (fileLength contents (s.file t))

/-- The turns that are left. -/
def left (contents : List Char → Option (List Char)) (m : Nat) (s : Process) : Nat :=
  s.walk.left contents m + s.pool.left contents + ∑ t ∈ Finset.range s.threads.length, s.threadLeft contents t

end Process

section

variable {contents : List Char → Option (List Char)} {m t : Nat} {text dirName fileName text' : List Char}
  {all : List Search} {s s' : Process} {walk : Walk} {pool : Pool.State} {calls : List Frame} {listing : Listing}
  {p : Searcher} {rf : ResultFile} {e : Pool.Event} {search : Search}

namespace Process

/-- A thread has less to do. -/
lemma left_lt_of_thread (lt : t < s.threads.length) (threads : s'.threads = s.threads)
    (walk : s'.walk.left contents m = s.walk.left contents m) (pool : s'.pool.left contents = s.pool.left contents)
    (less : s'.threadLeft contents t < s.threadLeft contents t)
    (others : ∀ u ≠ t, s'.threadLeft contents u = s.threadLeft contents u) :
    s'.left contents m < s.left contents m := by
  rw [left, left, walk, pool, threads]
  refine Nat.add_lt_add_left (Finset.sum_lt_sum (fun u _ => ?_) ⟨t, Finset.mem_range.2 lt, less⟩) _
  obtain rfl | ne := eq_or_ne u t
  · exact less.le
  · exact (others u ne).le

/-- The main thread, or the pool, has less to do. -/
lemma left_lt_of_main (threads : s'.threads = s.threads) (finished : s'.pool.win.finished = s.pool.win.finished)
    (searcher : s'.searcher = s.searcher)
    (less : s'.walk.left contents m + s'.pool.left contents < s.walk.left contents m + s.pool.left contents) :
    s'.left contents m < s.left contents m := by
  have same : s'.threadLeft contents = s.threadLeft contents := by
    funext t
    rw [threadLeft, threadLeft, file, file, threads, finished, searcher]
  rw [left, left, same, threads]
  exact Nat.add_lt_add_right less _

/-- A step of a search leaves less to do. -/
lemma left_lt_search (inv : s.Inv contents m text all) (thread : s.threads[t]? = some (fileName, text'))
    (next : Searches contents fileName text' t s.rf (s.searcher t) p rf) :
    Process.left contents m { s with rf, searcher := Function.update s.searcher t p } < s.left contents m := by
  obtain ⟨lt, -⟩ := List.getElem?_eq_some_iff.1 thread
  have file : s.file t = fileName := by
    rw [Process.file, List.getD_eq_getElem?_getD, thread, Option.getD_some]
  have running : t ∉ s.pool.win.finished := by
    intro mem
    obtain ⟨r, returned⟩ := inv.ended t mem
    rw [returned] at next
    cases next
  refine left_lt_of_thread lt rfl rfl rfl ?_ fun u ne => ?_
  · change (if t ∈ s.pool.win.finished then 0
      else (Function.update s.searcher t p t).left (s.file t) (fileLength contents (s.file t))) < _
    rw [threadLeft, if_neg running, if_neg running, Function.update_self, file]
    exact next.left_lt
  · change (if u ∈ s.pool.win.finished then 0
      else (Function.update s.searcher t p u).left (s.file u) (fileLength contents (s.file u))) = _
    rw [Function.update_of_ne ne]
    rfl

/-- So does the end of a thread. -/
lemma left_lt_finish {r : Nat} (returned : s.searcher t = .returned r)
    (next : Pool.step s.pool (.finish t) = some pool) :
    Process.left contents m { s with pool } < s.left contents m := by
  obtain ⟨fresh, rfl⟩ := State.of_finish next
  refine left_lt_of_thread fresh.1 rfl rfl rfl ?_ fun u ne => ?_
  · change (if t ∈ t :: s.pool.win.finished then 0 else _) < _
    rw [threadLeft, if_pos List.mem_cons_self, if_neg fresh.2, returned]
    exact Nat.one_pos
  · change (if u ∈ t :: s.pool.win.finished then 0 else _) = _
    rw [threadLeft]
    refine if_congr ?_ rfl rfl
    rw [List.mem_cons, or_iff_right ne]

/-- So does a thread that has been created. -/
lemma left_lt_created (inv : s.Inv contents m text all) (pc : s.pool.pc = .creating search) (pc' : pool.pc = .idle)
    (threads : pool.win.threads = s.threads ++ [search]) (finished : pool.win.finished = s.pool.win.finished) :
    left contents m { s with pool } < s.left contents m := by
  have grown : Process.threads { s with pool } = s.threads ++ [search] := threads
  have old : ∀ t ∈ Finset.range s.threads.length,
      threadLeft contents { s with pool } t = s.threadLeft contents t := by
    intro t mem
    rw [threadLeft, threadLeft, file, file, grown, List.getD_eq_getElem?_getD,
      List.getElem?_append_left (Finset.mem_range.1 mem), ← List.getD_eq_getElem?_getD, finished]
  have new : threadLeft contents { s with pool } s.threads.length = searchLength contents search.1 := by
    have opening := inv.new s.threads.length le_rfl
    have running : s.threads.length ∉ s.pool.win.finished := by
      intro mem
      obtain ⟨r, returned⟩ := inv.ended _ mem
      cases opening.symm.trans returned
    rw [threadLeft, finished, if_neg running, file, grown, List.getD_eq_getElem?_getD, List.getElem?_concat_length,
      Option.getD_some]
    dsimp only
    rw [opening, searchLength]
  have sum : ∑ t ∈ Finset.range s.threads.length, threadLeft contents { s with pool } t =
      ∑ t ∈ Finset.range s.threads.length, s.threadLeft contents t := Finset.sum_congr rfl old
  rw [left, left, grown, List.length_append, List.length_singleton, Finset.sum_range_succ, new, sum, Pool.State.left, pc',
    Pool.State.left, pc]
  dsimp only
  omega

/-- A method of the pool has less to do. -/
lemma left_lt_called (inv : s.Inv contents m text all) (one : 1 ≤ m) (le : m ≤ maximumWaitObjects) (isCall : IsCall e)
    (next : Pool.step s.pool e = some pool) : left contents m { s with pool } < s.left contents m := by
  have less (threads : pool.win.threads = s.threads) (finished : pool.win.finished = s.pool.win.finished)
      (less : pool.left contents < s.pool.left contents) : left contents m { s with pool } < s.left contents m :=
    left_lt_of_main threads finished rfl (Nat.add_lt_add_left less _)
  cases inv.pool.goes one le isCall next with
  | waited pc eq =>
    subst eq
    refine less rfl rfl ?_
    rw [Pool.State.left, Pool.State.left, pc]
    exact Nat.lt_succ_self _
  | closed pc pc' threads finished =>
    refine less threads finished ?_
    rw [Pool.State.left, Pool.State.left, pc, pc']
    exact Nat.lt_succ_self _
  | refused pc eq =>
    subst eq
    refine less rfl rfl ?_
    rw [Pool.State.left, Pool.State.left, pc]
    exact Nat.succ_pos _
  | created pc pc' threads finished => exact left_lt_created inv pc pc' threads finished
  | waitedAll pc eq =>
    subst eq
    refine less rfl rfl ?_
    rw [Pool.State.left, Pool.State.left, pc]
    exact Nat.one_pos
  | empty pc eq =>
    subst eq
    refine less rfl rfl ?_
    rw [Pool.State.left, Pool.State.left, pc]
    exact Nat.one_pos
  | destroyed pc pc' win =>
    refine less (by rw [win]; rfl) (by rw [win]) ?_
    rw [Pool.State.left, Pool.State.left, pc, pc']
    exact Nat.succ_pos _
  | destroying pc pc' threads finished _ size =>
    refine less threads finished ?_
    rw [Pool.State.left, Pool.State.left, pc, pc']
    dsimp only
    omega

/-- A method of the pool begins. -/
lemma left_lt_method {pc : Pc} (less : walk.left contents m +
    Pool.State.left contents { s.pool with pc } < s.walk.left contents m) :
    left contents m { s with pool := { s.pool with pc }, walk } < s.left contents m :=
  left_lt_of_main rfl rfl rfl (Nat.lt_add_right _ less)

/-- The main thread goes on. -/
lemma left_lt_goto (less : walk.left contents m < s.walk.left contents m) :
    (s.goto walk).left contents m < s.left contents m :=
  left_lt_of_main rfl rfl rfl (Nat.add_lt_add_right less _)

/-- `execute` goes into its loop, or fails. -/
lemma exists_call (contents : List Char → Option (List Char)) (m : Nat) (s : Process) (dirName : List Char)
    (listing : Listing) (calls : List Frame) : ∃ walk, s.call dirName listing calls = s.goto walk ∧
      walk.left contents m ≤ listing.turns contents dirName + callTurns contents calls + m + 4 := by
  have failed : (Walk.returned (-1)).left contents m ≤
      listing.turns contents dirName + callTurns contents calls + m + 4 := by
    rw [Walk.left]
    omega
  have found : (Walk.looking (⟨dirName, 0, listing⟩ :: calls)).left contents m ≤
      listing.turns contents dirName + callTurns contents calls + m + 4 := by
    rw [Walk.left, callTurns, List.map_cons, List.sum_cons]
    exact le_rfl
  rw [call.eq_def]
  by_cases long : maxPath - 3 < stringCchLength dirName
  · rw [if_pos long]
    exact ⟨_, rfl, failed⟩
  · rw [if_neg long]
    cases listing with
    | done => exact ⟨_, rfl, failed⟩
    | file => exact ⟨_, rfl, found⟩
    | dir => exact ⟨_, rfl, found⟩

/-- What the innermost call has left, and the others. -/
lemma callTurns_cons (f : Frame) (calls : List Frame) :
    callTurns contents (f :: calls) = f.rest.turns contents f.dirName + callTurns contents calls := by
  rw [callTurns, List.map_cons, List.sum_cons, callTurns]

/-- Every turn leaves less to do. -/
lemma left_lt (inv : s.Inv contents m text all) (one : 1 ≤ m) (le : m ≤ maximumWaitObjects)
    (next : Takes contents text s s') : s'.left contents m < s.left contents m := by
  cases next with
  | end_ walk =>
    refine left_lt_goto ?_
    rw [walk, Walk.left, Walk.left]
    omega
  | skipFile walk =>
    refine left_lt_goto ?_
    simp only [walk, Walk.left, callTurns_cons, Listing.turns]
    omega
  | skipDir walk =>
    refine left_lt_goto ?_
    simp only [walk, Walk.left, callTurns_cons, Listing.turns]
    omega
  | file walk _ begin =>
    cases moves_of_step begin with
    | wait =>
      refine left_lt_method ?_
      simp only [walk, Walk.left, callTurns_cons, Listing.turns, Pool.State.left]
      omega
    | create =>
      refine left_lt_method ?_
      simp only [walk, Walk.left, callTurns_cons, Listing.turns, Pool.State.left]
      omega
  | @dir dirName level name sub next calls walk =>
    obtain ⟨walk', eq, le⟩ := exists_call contents m s (filePath dirName name) sub (⟨dirName, level, next⟩ :: calls)
    rw [eq]
    refine left_lt_goto (le.trans_lt ?_)
    simp only [walk, Walk.left, callTurns_cons, Listing.turns]
    omega
  | done walk _ begin =>
    cases moves_of_step begin
    refine left_lt_method ?_
    simp only [walk, Walk.left, callTurns_cons, Listing.turns, Pool.State.left]
    omega
  | doneSub walk =>
    refine left_lt_goto ?_
    simp only [walk, Walk.left, callTurns_cons, Listing.turns]
    omega
  | added walk =>
    refine left_lt_goto ?_
    split_ifs
    · rw [walk, Walk.left, Walk.left]
      omega
    · rw [walk, Walk.left, Walk.left]
      omega
  | waited walk =>
    refine left_lt_goto ?_
    split_ifs
    · rw [walk, Walk.left, Walk.left]
      omega
    · rw [walk, Walk.left, Walk.left]
      omega
  | leave walk begin =>
    have size := inv.pool.le
    cases moves_of_step begin
    refine left_lt_method ?_
    simp only [walk, Walk.left, Pool.State.left]
    omega
  | exit walk =>
    refine left_lt_goto ?_
    rw [walk, Walk.left, Walk.left]
    exact Nat.one_pos
  | call _ isCall next => exact left_lt_called inv one le isCall next
  | search _ thread next => exact left_lt_search inv thread next
  | finish _ returned next => exact left_lt_finish returned next

/-- A run is no longer than what there has been to do. -/
lemma length_le {turns : List Turn} (inv : s.Inv contents m text all) (one : 1 ≤ m) (le : m ≤ maximumWaitObjects)
    (run : s.run contents text turns = some s') : turns.length + s'.left contents m ≤ s.left contents m := by
  induction turns generalizing s with
  | nil =>
    cases run
    exact (Nat.zero_add _).le
  | cons turn turns ih =>
    obtain ⟨s₁, first, rest⟩ := Option.bind_eq_some_iff.1 run
    have takes := takes_of_step first
    have less := left_lt inv one le takes
    have later := ih (inv.takes one le takes) rest
    rw [List.length_cons]
    omega

/-- How much there is to do at the start. -/
lemma left_start : (start m dirName listing).left contents m ≤ listing.turns contents dirName + m + 4 := by
  obtain ⟨walk, eq, le⟩ := exists_call contents m
    ⟨.start ⟨m, 0, List.replicate m NULL⟩, .looking [], ⟨[], none⟩, fun _ => .opening⟩ dirName listing []
  rw [start, eq]
  exact le

/-- A search that can go on has a turn. -/
lemma step_search {p' : Searcher} {rf' : ResultFile} (alive : ¬ s.walk.Ended)
    (thread : s.threads[t]? = some (fileName, text'))
    (next : doSearch contents fileName text' t s.rf (s.searcher t) = some (p', rf')) :
    ∃ s', s.step contents text (.search t) = some s' := by
  unfold step
  rw [if_neg alive]
  dsimp only
  rw [Process.search, thread]
  dsimp only
  split
  · next r returned =>
    rw [returned] at next
    cases next
  · exact ⟨_, by rw [next]; rfl⟩

/-- A thread that has not finished can go on, or it waits for one that can. -/
lemma exists_search {files : List (List Char)} (inv : s.Inv contents m text (files.map (·, text)))
    (alive : ¬ s.walk.Ended) (lt : t < s.threads.length) (running : t ∉ s.pool.win.finished) :
    ∃ u s', s.step contents text (.search u) = some s' := by
  have thread {u : Nat} (lt : u < s.threads.length) : s.threads[u]? = some (s.threads[u].1, s.threads[u].2) :=
    List.getElem?_eq_getElem lt
  cases next : doSearch contents s.threads[t].1 s.threads[t].2 t s.rf (s.searcher t) with
  | some q => exact ⟨t, step_search alive (thread lt) next⟩
  | none =>
    obtain ⟨r, returned⟩ | ⟨-, owned⟩ := doSearch_progress (inv.sound (thread lt)) next
    · let pool : Pool.State := { s.pool with win := { s.pool.win with finished := t :: s.pool.win.finished } }
      have finish : Pool.step s.pool (.finish t) = some pool := if_pos ⟨lt, running⟩
      refine ⟨t, { s with pool }, ?_⟩
      unfold step
      rw [if_neg alive]
      dsimp only
      rw [Process.search, thread lt, returned]
      dsimp only
      rw [finish]
      rfl
    · obtain ⟨u, owner⟩ := Option.ne_none_iff_exists'.1 owned
      obtain ⟨order, written⟩ := inv.written
      obtain ⟨part, rest, writing, -⟩ := written.held u owner
      rw [Function.comp_apply] at writing
      have lt' := (inv.hits (t := u) (by rw [writing]; exact fun eq => by cases eq)).1
      have here : s.searcher u = .writing rest := by
        cases p : s.searcher u with
        | writing rest' =>
          rw [p] at writing
          cases writing
          rfl
        | returned r =>
          rw [p, Searcher.phase] at writing
          split_ifs at writing
        | opening | reading | locking | terminated =>
          rw [p] at writing
          cases writing
      cases rest with
      | cons c rest => exact ⟨u, step_search alive (thread lt') (by rw [here]; rfl)⟩
      | nil =>
        have next : doSearch contents s.threads[u].1 s.threads[u].2 u s.rf (s.searcher u) =
            some (.returned textFound, { s.rf with mutex := none }) := by
          rw [here, doSearch, ResultFile.unlock, if_pos owner]
        exact ⟨u, step_search alive (thread lt') next⟩

/-- A call within the pool has a turn. -/
lemma step_call (alive : ¬ s.walk.Ended) (isCall : IsCall e) (next : Pool.step s.pool e = some pool) :
    s.step contents text (.call e) = some { s with pool } := by
  unfold step
  rw [if_neg alive]
  dsimp only
  rw [if_pos isCall, next]
  rfl

/-- A method of the pool that has been called can go on, or it waits for a thread that can. -/
lemma exists_call_or_search {files : List (List Char)} (inv : s.Inv contents m text (files.map (·, text))) (one : 1 ≤ m)
    (le : m ≤ maximumWaitObjects) (alive : ¬ s.walk.Ended) (busy : s.pool.pc ≠ .idle) (exists_ : s.pool.pc ≠ .destroyed) :
    ∃ turn s', turn ≠ .call (.created NULL) ∧ s.step contents text turn = some s' := by
  by_cases creating : ∃ search, s.pool.pc = .creating search
  · obtain ⟨search, pc⟩ := creating
    obtain ⟨h, new⟩ := Infinite.exists_notMem_finset (NULL :: s.pool.pool.held).toFinset
    rw [List.mem_toFinset, List.mem_cons, not_or, inv.pool.books.mem] at new
    have here := inv.pool.here
    simp only [State.Here, pc] at here
    rw [inv.pool.max, ← inv.pool.len] at here
    have next : Pool.step s.pool (.created h) =
        some { s.pool with win := s.pool.win.createThread search h, pool := s.pool.pool.push h, pc := .idle } := by
      rw [Pool.step, pc]
      change s.pool.created search h = _
      rw [State.created, if_neg new.1, if_neg new.2, if_neg (Nat.not_le.2 here)]
    refine ⟨.call (.created h), _, fun same => ?_, step_call alive trivial next⟩
    cases same
    exact new.1 rfl
  · obtain ⟨e, pool, next⟩ := searchPool_progress inv.pool one le busy exists_
    have call (isCall : IsCall e) (ne : e ≠ .created NULL) :
        ∃ turn s', turn ≠ .call (.created NULL) ∧ s.step contents text turn = some s' := by
      refine ⟨.call e, _, fun same => ?_, step_call alive isCall next⟩
      cases same
      exact ne rfl
    cases moves_of_step next with
    | wait pc | create pc | waitAll pc | destroy pc => exact absurd pc busy
    | created pc => exact absurd ⟨_, pc⟩ creating
    | waited | waitedAll => exact call trivial fun eq => by cases eq
    | close | closeLast => exact call trivial fun eq => by cases eq
    | finish next =>
      obtain ⟨fresh, -⟩ := State.of_finish next
      obtain ⟨u, s', step⟩ := exists_search inv alive fresh.1 fresh.2
      exact ⟨.search u, s', (fun eq => by cases eq), step⟩

/-- The main thread has a turn, where it is not in a call within the pool. -/
lemma step_main (alive : ¬ s.walk.Ended) (next : ∃ s', s.main text = some s') :
    ∃ turn s', turn ≠ .call (.created NULL) ∧ s.step contents text turn = some s' := by
  obtain ⟨s', next⟩ := next
  refine ⟨.main, s', (fun eq => by cases eq), ?_⟩
  unfold step
  rw [if_neg alive]
  exact next

/-- The loop of `execute` goes on. -/
lemma exists_main_looking (walk : s.walk = .looking calls) (idle : s.pool.pc = .idle) : ∃ s', s.main text = some s' := by
  rw [main, walk]
  cases calls with
  | nil => exact ⟨_, rfl⟩
  | cons f calls =>
    obtain ⟨dirName, level, rest⟩ := f
    cases rest with
    | done =>
      dsimp only
      split_ifs
      · rw [method, Pool.step, idle]
        exact ⟨_, rfl⟩
      · exact ⟨_, rfl⟩
    | file name next =>
      dsimp only
      split_ifs
      · exact ⟨_, rfl⟩
      · rw [method, Pool.step, idle]
        dsimp only
        split_ifs
        · exact ⟨_, rfl⟩
        · exact ⟨_, rfl⟩
    | dir name sub next =>
      dsimp only
      split_ifs
      · exact ⟨_, rfl⟩
      · exact ⟨_, rfl⟩

/-- As long as the process has not ended, somebody has a turn, and it need not be a `CreateThread` that fails. -/
lemma exists_turn {files : List (List Char)} (inv : s.Inv contents m text (files.map (·, text))) (one : 1 ≤ m)
    (le : m ≤ maximumWaitObjects) (alive : ¬ s.walk.Ended) :
    ∃ turn s', turn ≠ .call (.created NULL) ∧ s.step contents text turn = some s' := by
  cases inv.here with
  | looking walk pc => exact step_main alive (exists_main_looking walk pc)
  | adding _ _ pc =>
    refine exists_call_or_search inv one le alive ?_ ?_
    · intro idle
      rw [idle] at pc
      cases pc
    · intro destroyed
      rw [destroyed] at pc
      cases pc
  | added walk _ pc => exact step_main alive ⟨_, by rw [main, walk]; dsimp only; rw [resume, pc]⟩
  | waiting _ pc =>
    exact exists_call_or_search inv one le alive (fun idle => by cases pc.symm.trans idle)
      fun gone => by cases pc.symm.trans gone
  | waited walk pc => exact step_main alive ⟨_, by rw [main, walk]; dsimp only; rw [resume, pc]⟩
  | returned walk pc => exact step_main alive ⟨_, by rw [main, walk]; dsimp only; rw [method, Pool.step, pc]; rfl⟩
  | leaving _ pc =>
    exact exists_call_or_search inv one le alive (fun idle => by cases pc.symm.trans idle)
      fun gone => by cases pc.symm.trans gone
  | left walk pc => exact step_main alive ⟨_, by rw [main, walk]; dsimp only; rw [pc]⟩
  | ended stop => exact absurd stop alive

end Process

end

/-- The directories that are left have short paths. -/
def Short (calls : List Frame) : Prop := ∀ f ∈ calls, f.rest.ShortDirs f.dirName

/-- The next wait for all threads is not for none. -/
def Fed (threads : List Search) : List Frame → Prop
  | [] => True
  | f :: _ => threads ≠ [] ∨ f.rest.FileFirst

/-- As long as threads can be created, the program is on its way to the exit code `0` just when the tree is `good`. -/
inductive Verdict (good : Prop) (s : Process) : Prop where
  | looking {calls} (walk : s.walk = .looking calls) (stock : s.pool.pool.size = 0 ↔ s.threads = [])
    (fair : good ↔ Fed s.threads calls ∧ Short calls)
  | adding {calls search} (walk : s.walk = .adding calls) (pc : s.pool.pc.pending = some search)
    (fair : good ↔ Short calls)
  | added {calls} (walk : s.walk = .adding calls) (pc : s.pool.pc = .idle) (calm : s.pool.thrown = [])
    (stock : s.pool.pool.size ≠ 0 ∧ s.threads ≠ []) (fair : good ↔ Short calls)
  | waiting {calls} (walk : s.walk = .waiting calls) (pc : s.pool.pc = .waitingAll)
    (stock : s.pool.pool.size = 0 ↔ s.threads = []) (fair : good ↔ s.threads ≠ [] ∧ Short calls)
  | waited {calls} (walk : s.walk = .waiting calls) (pc : s.pool.pc = .idle) (calm : s.pool.thrown = [])
    (stock : s.pool.pool.size ≠ 0 ∧ s.threads ≠ []) (fair : good ↔ Short calls)
  | failed {calls} (walk : s.walk = .waiting calls) (pc : s.pool.pc = .idle) (loud : s.pool.thrown ≠ []) (bad : ¬ good)
  | returned {r} (walk : s.walk = .returned r) (fair : r = 0 ↔ good)
  | leaving {code} (walk : s.walk = .leaving code) (fair : code = 0 ↔ good)
  | exited {code} (walk : s.walk = .exited code) (fair : code = 0 ↔ good)
  | aborted (walk : s.walk = .aborted) (bad : ¬ good)

section

variable {contents : List Char → Option (List Char)} {m t : Nat} {text dirName fileName text' : List Char}
  {all : List Search} {s s' : Process} {walk : Walk} {pool : Pool.State} {calls : List Frame} {listing : Listing}
  {e : Pool.Event} {search : Search} {good : Prop} {f : Frame}

/-- Short paths, from the innermost call on. -/
lemma short_cons : Short (f :: calls) ↔ f.rest.ShortDirs f.dirName ∧ Short calls := List.forall_mem_cons

/-- With threads that have been started, no wait is for none. -/
lemma fed_of_ne_nil {threads : List Search} (ne : threads ≠ []) (calls : List Frame) : Fed threads calls := by
  cases calls with
  | nil => trivial
  | cons => exact .inl ne

namespace Verdict

/-- Nothing that matters has changed. -/
lemma congr (v : Verdict good s) (walk : s'.walk = s.walk) (threads : s'.threads = s.threads)
    (pc : s'.pool.pc = s.pool.pc) (thrown : s'.pool.thrown = s.pool.thrown)
    (size : s'.pool.pool.size = s.pool.pool.size) : Verdict good s' := by
  cases v with
  | looking walk' stock fair => exact .looking (walk.trans walk') (by rw [size, threads, stock]) (by rw [threads, fair])
  | adding walk' pc' fair => exact .adding (walk.trans walk') (by rw [pc, pc']) fair
  | added walk' pc' calm stock fair =>
    exact .added (walk.trans walk') (pc.trans pc') (thrown.trans calm) (by rw [size, threads]; exact stock) fair
  | waiting walk' pc' stock fair =>
    exact .waiting (walk.trans walk') (pc.trans pc') (by rw [size, threads, stock]) (by rw [threads, fair])
  | waited walk' pc' calm stock fair =>
    exact .waited (walk.trans walk') (pc.trans pc') (thrown.trans calm) (by rw [size, threads]; exact stock) fair
  | failed walk' pc' loud bad => exact .failed (walk.trans walk') (pc.trans pc') (by rw [thrown]; exact loud) bad
  | returned walk' fair => exact .returned (walk.trans walk') fair
  | leaving walk' fair => exact .leaving (walk.trans walk') fair
  | exited walk' fair => exact .exited (walk.trans walk') fair
  | aborted walk' bad => exact .aborted (walk.trans walk') bad

/-- The verdict in the loop. -/
lemma of_looking (v : Verdict good s) (walk : s.walk = .looking calls) :
    (s.pool.pool.size = 0 ↔ s.threads = []) ∧ (good ↔ Fed s.threads calls ∧ Short calls) := by
  cases v with
  | looking walk' stock fair =>
    cases walk.symm.trans walk'
    exact ⟨stock, fair⟩
  | adding walk' | added walk' | waiting walk' | waited walk' | failed walk' | returned walk' | leaving walk'
  | exited walk' | aborted walk' => cases walk.symm.trans walk'

/-- The next entry of a directory is looked at. -/
lemma entry {level : Nat} {dirName : List Char} (v : Verdict good s) (walk : s.walk = .looking (f :: calls))
    (first : f.rest.FileFirst ↔ listing.FileFirst) (short : f.rest.ShortDirs f.dirName ↔ listing.ShortDirs dirName) :
    Verdict good (s.goto (.looking (⟨dirName, level, listing⟩ :: calls))) := by
  obtain ⟨stock, fair⟩ := v.of_looking walk
  refine .looking rfl stock (fair.trans ?_)
  rw [short_cons, short_cons, Fed, Fed, first, short]
  rfl

/-- `execute` is called for the next directory. -/
lemma dir {level : Nat} {name : List Char} {sub next : Listing} (v : Verdict good s)
    (walk : s.walk = .looking (⟨dirName, level, .dir name sub next⟩ :: calls)) (dots : ¬ IsDots name)
    (fits : (join dirName name).length < maxPath) (ne : sub ≠ .done) :
    Verdict good (s.call (filePath dirName name) sub (⟨dirName, level, next⟩ :: calls)) := by
  obtain ⟨stock, fair⟩ := v.of_looking walk
  rw [short_cons, Fed, Listing.FileFirst, if_neg dots, Listing.ShortDirs] at fair
  rw [filePath_eq fits, Process.call.eq_def, stringCchLength, if_pos fits]
  by_cases long : maxPath - 3 < (join dirName name).length
  · rw [if_pos long]
    refine .returned rfl (iff_of_false (fun eq => by cases eq) fun yes => ?_)
    exact ((fair.1 yes).2.1.1 dots).1.not_gt long
  · rw [if_neg long]
    have found : Verdict good (s.goto (.looking (⟨join dirName name, 0, sub⟩ :: ⟨dirName, level, next⟩ :: calls))) := by
      refine .looking rfl stock (fair.trans ?_)
      rw [short_cons, short_cons, Fed]
      constructor
      · rintro ⟨fed, ⟨short, later⟩, outer⟩
        exact ⟨fed, (short dots).2, later, outer⟩
      · rintro ⟨fed, short, later, outer⟩
        exact ⟨fed, ⟨fun _ => ⟨Nat.le_of_not_lt long, short⟩, later⟩, outer⟩
    cases sub with
    | done => exact absurd rfl ne
    | file => exact found
    | dir => exact found

/-- The verdict in `addSearch`. -/
lemma of_pending (v : Verdict good s) (walk : s.walk = .adding calls) (pending : s.pool.pc.pending = some search) :
    good ↔ Short calls := by
  cases v with
  | adding walk' _ fair =>
    cases walk.symm.trans walk'
    exact fair
  | added _ pc =>
    rw [pc] at pending
    cases pending
  | looking walk' | waiting walk' | waited walk' | failed walk' | returned walk' | leaving walk' | exited walk'
  | aborted walk' => cases walk.symm.trans walk'

/-- The verdict in the wait for all. -/
lemma of_waitingAll (v : Verdict good s) (walk : s.walk = .waiting calls) (pc : s.pool.pc = .waitingAll) :
    (s.pool.pool.size = 0 ↔ s.threads = []) ∧ (good ↔ s.threads ≠ [] ∧ Short calls) := by
  cases v with
  | waiting walk' _ stock fair =>
    cases walk.symm.trans walk'
    exact ⟨stock, fair⟩
  | waited _ pc' | failed _ pc' => cases pc.symm.trans pc'
  | looking walk' | adding walk' | added walk' | returned walk' | leaving walk' | exited walk' | aborted walk' =>
    cases walk.symm.trans walk'

/-- The verdict in the destructor. -/
lemma of_leaving {code : Int} (v : Verdict good s) (walk : s.walk = .leaving code) : code = 0 ↔ good := by
  cases v with
  | leaving walk' fair =>
    cases walk.symm.trans walk'
    exact fair
  | looking walk' | adding walk' | added walk' | waiting walk' | waited walk' | failed walk' | returned walk'
  | exited walk' | aborted walk' => cases walk.symm.trans walk'

/-- A method of the pool goes on. -/
lemma called (v : Verdict good s) (inv : s.Inv contents m text all) (one : 1 ≤ m) (le : m ≤ maximumWaitObjects)
    (alive : ¬ s.walk.Ended) (isCall : IsCall e) (next : Pool.step s.pool e = some pool) :
    .create ∈ pool.thrown ∨ Verdict good { s with pool } := by
  cases inv.pool.goes one le isCall next with
  | waited pc eq =>
    have pending := congrArg Pc.pending pc
    obtain ⟨calls, walk, -⟩ := inv.here.of_pending alive pending
    subst eq
    exact .inr (.adding walk rfl (v.of_pending walk pending))
  | closed pc pc' =>
    have pending := congrArg Pc.pending pc
    obtain ⟨calls, walk, -⟩ := inv.here.of_pending alive pending
    exact .inr (.adding walk (congrArg Pc.pending pc') (v.of_pending walk pending))
  | refused pc eq =>
    subst eq
    exact .inl (List.mem_append_right _ (List.mem_singleton_self _))
  | created pc pc' threads _ thrown size =>
    have pending := congrArg Pc.pending pc
    obtain ⟨calls, walk, -, calm, -⟩ := inv.here.of_pending alive pending
    refine .inr (.added walk pc' (thrown.trans calm) ⟨?_, ?_⟩ (v.of_pending walk pending))
    · rw [size]
      exact Nat.succ_ne_zero _
    · rw [Process.threads, threads]
      exact List.append_ne_nil_of_right_ne_nil _ (List.cons_ne_nil _ _)
  | waitedAll pc eq some_ =>
    obtain ⟨calls, walk, calm, -⟩ := inv.here.of_waitingAll alive pc
    obtain ⟨stock, fair⟩ := v.of_waitingAll walk pc
    have ne : s.threads ≠ [] := mt stock.2 some_
    subst eq
    exact .inr (.waited walk rfl calm ⟨some_, ne⟩ (fair.trans (and_iff_right ne)))
  | empty pc eq none =>
    obtain ⟨calls, walk, -⟩ := inv.here.of_waitingAll alive pc
    obtain ⟨stock, fair⟩ := v.of_waitingAll walk pc
    subst eq
    exact .inr (.failed walk rfl (List.append_ne_nil_of_right_ne_nil _ (List.cons_ne_nil _ _))
      fun yes => (fair.1 yes).1 (stock.1 none))
  | destroyed pc =>
    obtain ⟨code, walk, -⟩ := inv.here.of_destroying alive pc
    exact .inr (.leaving walk (v.of_leaving walk))
  | destroying pc =>
    obtain ⟨code, walk, -⟩ := inv.here.of_destroying alive pc
    exact .inr (.leaving walk (v.of_leaving walk))

/-- The step lemma. -/
lemma takes (v : Verdict good s) (inv : s.Inv contents m text all) (one : 1 ≤ m) (le : m ≤ maximumWaitObjects)
    (next : Takes contents text s s') : .create ∈ s'.pool.thrown ∨ Verdict good s' := by
  cases next with
  | end_ walk =>
    obtain ⟨-, fair⟩ := v.of_looking walk
    exact .inr (.returned rfl (iff_of_true rfl (fair.2 ⟨trivial, fun f mem => absurd mem List.not_mem_nil⟩)))
  | skipFile walk dots => exact .inr (v.entry walk (forall_prop_of_true dots) Iff.rfl)
  | @skipDir dirName level name sub next calls walk dots =>
    refine .inr (v.entry walk ?_ ?_)
    · rw [Listing.FileFirst, if_pos dots]
    · rw [Listing.ShortDirs]
      exact and_iff_right fun no => absurd dots no
  | @file dirName level name next calls pool walk dots begin =>
    obtain ⟨-, fair⟩ := v.of_looking walk
    have fed : Fed s.threads (⟨dirName, level, .file name next⟩ :: calls) := .inr fun yes => absurd yes dots
    have same : Short (⟨dirName, level, .file name next⟩ :: calls) ↔ Short (⟨dirName, level, next⟩ :: calls) := by
      rw [short_cons, short_cons, Listing.ShortDirs]
    have fair' : good ↔ Short (⟨dirName, level, next⟩ :: calls) := (fair.trans (and_iff_right fed)).trans same
    cases moves_of_step begin with
    | wait => exact .inr (.adding rfl rfl fair')
    | create => exact .inr (.adding rfl rfl fair')
  | dir walk dots =>
    obtain ⟨-, -, -, ⟨-, tree⟩, -⟩ := inv.frame walk
    obtain ⟨fits, ne, -⟩ := tree.1 dots
    exact .inr (v.dir walk dots fits ne)
  | done walk _ begin =>
    obtain ⟨stock, fair⟩ := v.of_looking walk
    rw [short_cons, Fed, Listing.FileFirst, or_false, Listing.ShortDirs, true_and] at fair
    cases moves_of_step begin
    exact .inr (.waiting rfl rfl stock fair)
  | doneSub walk zero =>
    obtain ⟨-, -, -, ⟨outermost, -⟩, -⟩ := inv.frame walk
    exact absurd outermost zero
  | added walk pc =>
    cases v with
    | added walk' _ calm stock fair =>
      cases walk.symm.trans walk'
      rw [if_pos calm]
      refine .inr (.looking rfl ?_ (fair.trans (and_iff_right (fed_of_ne_nil stock.2 _)).symm))
      exact iff_of_false stock.1 stock.2
    | adding _ pending =>
      rw [pc] at pending
      cases pending
    | looking walk' | waiting walk' | waited walk' | failed walk' | returned walk' | leaving walk' | exited walk'
    | aborted walk' => cases walk.symm.trans walk'
  | waited walk pc =>
    cases v with
    | waited walk' _ calm stock fair =>
      cases walk.symm.trans walk'
      rw [if_pos calm]
      refine .inr (.looking rfl ?_ (fair.trans (and_iff_right (fed_of_ne_nil stock.2 _)).symm))
      exact iff_of_false stock.1 stock.2
    | failed walk' _ loud bad =>
      rw [if_neg loud]
      exact .inr (.aborted rfl bad)
    | waiting _ pc' => cases pc.symm.trans pc'
    | looking walk' | adding walk' | added walk' | returned walk' | leaving walk' | exited walk' | aborted walk' =>
      cases walk.symm.trans walk'
  | @leave r _ walk begin =>
    cases v with
    | returned walk' fair =>
      cases walk.symm.trans walk'
      refine .inr (.leaving rfl (Iff.trans ?_ fair))
      split_ifs with failed
      · exact iff_of_false (fun eq => by cases eq) failed
      · exact iff_of_true rfl (not_not.1 failed)
    | looking walk' | adding walk' | added walk' | waiting walk' | waited walk' | failed walk' | leaving walk'
    | exited walk' | aborted walk' => cases walk.symm.trans walk'
  | exit walk => exact .inr (.exited rfl (v.of_leaving walk))
  | call alive isCall next => exact v.called inv one le alive isCall next
  | search => exact .inr (v.congr rfl rfl rfl rfl rfl)
  | finish _ _ next =>
    obtain ⟨-, rfl⟩ := State.of_finish next
    exact .inr (v.congr rfl rfl rfl rfl rfl)

end Verdict

/-- An exception is not forgotten. -/
lemma Takes.thrown (inv : s.Inv contents m text all) (one : 1 ≤ m) (le : m ≤ maximumWaitObjects)
    (next : Takes contents text s s') : s.pool.thrown ⊆ s'.pool.thrown := by
  cases next with
  | file _ _ begin | done _ _ begin | leave _ begin =>
    cases moves_of_step begin
    all_goals exact fun _ mem => mem
  | @dir dirName level name sub next calls =>
    obtain ⟨walk, eq, -⟩ := Process.exists_call contents m s (filePath dirName name) sub (⟨dirName, level, next⟩ :: calls)
    rw [eq]
    exact fun _ mem => mem
  | call _ isCall next =>
    cases inv.pool.goes one le isCall next with
    | waited _ eq | waitedAll _ eq =>
      subst eq
      exact fun _ mem => mem
    | refused _ eq | empty _ eq =>
      subst eq
      exact List.subset_append_left _ _
    | closed _ _ _ _ thrown | created _ _ _ _ thrown | destroyed _ _ _ thrown | destroying _ _ _ _ thrown =>
      rw [← thrown]
      exact fun _ mem => mem
  | finish _ _ next =>
    obtain ⟨-, rfl⟩ := State.of_finish next
    exact fun _ mem => mem
  | end_ | skipFile | skipDir | doneSub | added | waited | exit | search => exact fun _ mem => mem

/-- The run lemma. -/
lemma Verdict.run {turns : List Turn} (v : .create ∈ s.pool.thrown ∨ Verdict good s) (inv : s.Inv contents m text all)
    (one : 1 ≤ m) (le : m ≤ maximumWaitObjects) (run : s.run contents text turns = some s') :
    .create ∈ s'.pool.thrown ∨ Verdict good s' := by
  induction turns generalizing s with
  | nil =>
    cases run
    exact v
  | cons turn turns ih =>
    obtain ⟨s₁, first, rest⟩ := Option.bind_eq_some_iff.1 run
    have next := takes_of_step first
    refine ih ?_ (inv.takes one le next) rest
    cases v with
    | inl create => exact .inl (next.thrown inv one le create)
    | inr v => exact v.takes inv one le next

/-- What the exit code depends on, at the beginning. -/
lemma Verdict.start (fits : dirName.length < maxPath) : Verdict
    (listing.FileFirst ∧ dirName.length ≤ maxPath - 3 ∧ listing.ShortDirs dirName) (Process.start m dirName listing) := by
  rw [Process.start, Process.call.eq_def, stringCchLength, if_pos fits]
  by_cases long : maxPath - 3 < dirName.length
  · rw [if_pos long]
    exact .returned rfl (iff_of_false (fun eq => by cases eq) fun yes => yes.2.1.not_gt long)
  · rw [if_neg long]
    have found (s : Process) (none : s.threads = []) (size : s.pool.pool.size = 0) :
        Verdict (listing.FileFirst ∧ dirName.length ≤ maxPath - 3 ∧ listing.ShortDirs dirName)
          (s.goto (.looking [⟨dirName, 0, listing⟩])) := by
      refine .looking rfl (iff_of_true size none) ?_
      have same : (s.goto (.looking [⟨dirName, 0, listing⟩])).threads = [] := none
      rw [same, Fed, short_cons]
      constructor
      · rintro ⟨first, -, short⟩
        exact ⟨.inr first, short, fun f mem => absurd mem List.not_mem_nil⟩
      · rintro ⟨first, short, -⟩
        exact ⟨first.resolve_left fun ne => ne rfl, Nat.le_of_not_lt long, short⟩
    cases listing with
    | done => exact .returned rfl (iff_of_false (fun eq => by cases eq) fun yes => yes.1.elim)
    | file => exact found _ rfl rfl
    | dir => exact found _ rfl rfl

end

/-- Every run comes to an end, as there is a bound on its length, and somebody has a turn until the process has ended.
Unless a thread could not be created, it has ended with the exit code `0` if and only if the tree is one that `execute`
can search: the first entry of the root, the first entry of that, and so on, lead to a regular file, and the paths of the
directories leave room for a pattern. -/
theorem grep_ends {contents : List Char → Option (List Char)} {m : Nat} {text dirName : List Char} {listing : Listing}
    {turns : List Turn} {s : Process} (one : 1 ≤ m) (le : m ≤ maximumWaitObjects) (fits : dirName.length < maxPath)
    (tree : listing.Tree dirName) (run : (Process.start m dirName listing).run contents text turns = some s) :
    turns.length ≤ listing.turns contents dirName + m + 4 ∧
    (¬ s.walk.Ended → ∃ turn s', turn ≠ .call (.created NULL) ∧ s.step contents text turn = some s') ∧
    (s.walk.Ended → .create ∉ s.pool.thrown →
      (s.walk = .exited 0 ↔ listing.FileFirst ∧ dirName.length ≤ maxPath - 3 ∧ listing.ShortDirs dirName)) := by
  have start : (Process.start m dirName listing).Inv contents m text ((listing.files dirName).map (·, text)) :=
    .start tree
  have inv := start.run one le run
  refine ⟨?_, Process.exists_turn inv one le, fun ended calm => ?_⟩
  · have bound := Process.length_le start one le run
    have total : (Process.start m dirName listing).left contents m ≤ _ := Process.left_start
    omega
  · cases (Verdict.run (.inr (.start fits)) start one le run).resolve_left calm with
    | exited walk fair =>
      rw [walk, ← fair]
      constructor
      · intro exited
        cases exited
        rfl
      · rintro rfl
        rfl
    | aborted walk bad => exact iff_of_false (by rw [walk]; exact nofun) bad
    | looking walk | adding walk | added walk | waiting walk | waited walk | failed walk | returned walk | leaving walk =>
      rw [walk] at ended
      exact ended.elim

/-- An empty directory in front of a file: its end is waited for with no threads, and the exception ends the process. -/
theorem grep_ends_empty : ∃ turns s,
    (Process.start 20 ['r'] (.dots (.dir ['d'] (.dots .done) (.file ['a'] .done)))).run (fun _ => some ['x']) ['x']
      turns = some s ∧ s.walk = .aborted ∧ ¬ ((Listing.dots (.dir ['d'] (.dots .done) (.file ['a'] .done))).FileFirst ∧
      ['r'].length ≤ maxPath - 3 ∧ (Listing.dots (.dir ['d'] (.dots .done) (.file ['a'] .done))).ShortDirs ['r']) := by
  let turns : List Turn := [.main, .main, .main, .main, .main, .main, .call (.waited 0), .main]
  have tree : (Listing.dots (.dir ['d'] (.dots .done) (.file ['a'] .done))).Tree ['r'] := by
    simp [Listing.dots, Listing.Tree, join, maxPath]
  obtain ⟨s, run, walk, calm⟩ : ∃ s, (Process.start 20 ['r'] (.dots (.dir ['d'] (.dots .done) (.file ['a'] .done)))).run
    (fun _ => some ['x']) ['x'] turns = some s ∧ s.walk = .aborted ∧ s.pool.thrown = [.waitAll] := ⟨_, rfl, rfl, rfl⟩
  refine ⟨turns, s, run, walk, fun good => ?_⟩
  have exited := ((grep_ends (by decide) (by decide) (by decide) tree run).2.2 (by rw [walk]; trivial)
    (by rw [calm]; decide)).2 good
  cases walk.symm.trans exited

end PDS.Cpp
