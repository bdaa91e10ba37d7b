import PDS.Cpp.Grep

/-!
# The program finds the files with the text

The invariant of the process: what the searches know is right (`Searcher.Sound`), the result file has whole lines and a
part of the line of the thread that owns its mutex (`Written`), and what the main thread has still to do, with the
threads that there are, is all of the tree (`Process.At`).
-/

namespace PDS.Cpp
open Pool Journal

/-- The searches that calls of `execute` still have to start. -/
def searches (text : List Char) (calls : List Frame) : List Search :=
  calls.flatMap fun f => (f.rest.files f.dirName).map (·, text)

/-- The calls of `execute` that the main thread is in. -/
def Walk.calls : Walk → List Frame
  | .looking calls | .adding calls | .waiting calls => calls
  | .returned _ | .leaving _ | .exited _ | .aborted => []

/-- The search that `addSearch` has been called for, until its thread has been created. -/
def Pool.Pc.pending : Pc → Option Search
  | .waiting search | .closing search _ | .creating search => some search
  | .idle | .waitingAll | .destroying | .destroyed | .fault => none

/-- All searches have been started, and have finished. -/
def Process.Complete (all : List Search) (s : Process) : Prop := s.threads = all ∧ s.pool.AllFinished

/-- What holds where the main thread is, when the searches of the tree are `all`. -/
inductive Process.At (text : List Char) (all : List Search) (s : Process) : Prop where
  | looking {calls} (walk : s.walk = .looking calls) (pc : s.pool.pc = .idle) (calm : s.pool.thrown = [])
    (plan : s.threads ++ searches text calls = all) (last : calls = [] → s.pool.AllFinished)
  | adding {calls search} (walk : s.walk = .adding calls) (inner : calls ≠ []) (pc : s.pool.pc.pending = some search)
    (calm : s.pool.thrown = []) (plan : s.threads ++ search :: searches text calls = all)
  | added {calls} (walk : s.walk = .adding calls) (inner : calls ≠ []) (pc : s.pool.pc = .idle)
    (plan : s.pool.thrown = [] → s.threads ++ searches text calls = all)
  | waiting {calls} (walk : s.walk = .waiting calls) (pc : s.pool.pc = .waitingAll) (calm : s.pool.thrown = [])
    (plan : s.threads ++ searches text calls = all)
  | waited {calls} (walk : s.walk = .waiting calls) (pc : s.pool.pc = .idle)
    (plan : s.pool.thrown = [] → s.threads ++ searches text calls = all ∧ s.pool.AllFinished)
  | returned {r} (walk : s.walk = .returned r) (pc : s.pool.pc = .idle) (complete : r = 0 → s.Complete all)
  | leaving {code} (walk : s.walk = .leaving code) (pc : s.pool.pc = .destroying) (complete : code = 0 → s.Complete all)
  | left {code} (walk : s.walk = .leaving code) (pc : s.pool.pc = .destroyed) (complete : code = 0 → s.Complete all)
  | ended (walk : s.walk.Ended) (complete : s.walk = .exited 0 → s.Complete all)

/-- The line that the thread `t` writes when it finds the text. -/
def Process.line (s : Process) (t : Nat) : List Char := resultLine (s.threads.getD t ([], [])).1

/-- The invariant of a process with a pool for `m` searches, which are among `all`. -/
structure Process.Inv (contents : List Char → Option (List Char)) (m : Nat) (text : List Char) (all : List Search)
    (s : Process) : Prop where
  pool : Pool.Inv m s.pool
  calls : ∀ f ∈ s.walk.calls, f.level = 0 ∧ f.rest.Tree f.dirName
  here : s.At text all
  begun : s.threads <+: all
  new : ∀ t, s.threads.length ≤ t → s.searcher t = .opening
  ended : ∀ t ∈ s.pool.win.finished, ∃ r, s.searcher t = .returned r
  sound : ∀ {t fileName text'}, s.threads[t]? = some (fileName, text') → (s.searcher t).Sound contents fileName text'
  written : ∃ order, Written s.line (Searcher.phase ∘ s.searcher) s.rf.mutex order s.rf.of

section

variable {contents : List Char → Option (List Char)} {m t : Nat} {text dirName fileName text' : List Char}
  {all : List Search} {s s' : Process} {walk : Walk} {pool : Pool.State} {calls : List Frame} {listing : Listing}
  {p : Searcher} {rf : ResultFile} {e : Pool.Event} {search : Search}

namespace Process.At

/-- A method that waits for a thread, or has one created, is `addSearch`. -/
lemma of_pending (here : s.At text all) (alive : ¬ s.walk.Ended) (pending : s.pool.pc.pending = some search) :
    ∃ calls, s.walk = .adding calls ∧ calls ≠ [] ∧ s.pool.thrown = [] ∧
      s.threads ++ search :: searches text calls = all := by
  cases here with
  | adding walk inner pc calm plan =>
    cases pc.symm.trans pending
    exact ⟨_, walk, inner, calm, plan⟩
  | looking _ pc | added _ _ pc | waiting _ pc | waited _ pc | returned _ pc | leaving _ pc | left _ pc =>
    rw [pc] at pending
    cases pending
  | ended stop => exact absurd stop alive

/-- A wait for all threads is that of `waitForSearchCompletion`. -/
lemma of_waitingAll (here : s.At text all) (alive : ¬ s.walk.Ended) (all_ : s.pool.pc = .waitingAll) :
    ∃ calls, s.walk = .waiting calls ∧ s.pool.thrown = [] ∧ s.threads ++ searches text calls = all := by
  cases here with
  | waiting walk _ calm plan => exact ⟨_, walk, calm, plan⟩
  | adding _ _ pc =>
    rw [all_] at pc
    cases pc
  | looking _ pc | added _ _ pc | waited _ pc | returned _ pc | leaving _ pc | left _ pc =>
    cases pc.symm.trans all_
  | ended stop => exact absurd stop alive

/-- The pool is destroyed at the end of `main`. -/
lemma of_destroying (here : s.At text all) (alive : ¬ s.walk.Ended) (destroying : s.pool.pc = .destroying) :
    ∃ code, s.walk = .leaving code ∧ (code = 0 → s.Complete all) := by
  cases here with
  | leaving walk _ complete => exact ⟨_, walk, complete⟩
  | adding _ _ pc =>
    rw [destroying] at pc
    cases pc
  | looking _ pc | added _ _ pc | waiting _ pc | waited _ pc | returned _ pc | left _ pc =>
    cases pc.symm.trans destroying
  | ended stop => exact absurd stop alive

/-- The loop of `execute`. -/
lemma of_looking (here : s.At text all) (walk : s.walk = .looking calls) :
    s.pool.pc = .idle ∧ s.pool.thrown = [] ∧ s.threads ++ searches text calls = all ∧
      (calls = [] → s.pool.AllFinished) := by
  cases here with
  | looking walk' pc calm plan last =>
    cases walk.symm.trans walk'
    exact ⟨pc, calm, plan, last⟩
  | adding walk' | added walk' | waiting walk' | waited walk' | returned walk' | leaving walk' | left walk' =>
    cases walk.symm.trans walk'
  | ended stop =>
    rw [walk] at stop
    exact stop.elim

end Process.At

namespace Process.Inv

/-- The pool has the same threads. -/
lemma samePool (inv : s.Inv contents m text all) (pinv : Pool.Inv m pool) (threads : pool.win.threads = s.threads)
    (ended : ∀ t ∈ pool.win.finished, ∃ r, s.searcher t = .returned r)
    (calls : ∀ f ∈ walk.calls, f.level = 0 ∧ f.rest.Tree f.dirName)
    (here : Process.At text all { s with pool, walk }) : Process.Inv contents m text all { s with pool, walk } := by
  have same : Process.threads { s with pool, walk } = s.threads := threads
  refine ⟨pinv, calls, here, ?_, ?_, ended, ?_, ?_⟩
  · rw [same]
    exact inv.begun
  · rw [same]
    exact inv.new
  · rw [same]
    exact inv.sound
  · have lines : Process.line { s with pool, walk } = s.line := by
      funext t
      rw [Process.line, same, Process.line]
    rw [lines]
    exact inv.written

/-- The main thread goes on. -/
lemma goto (inv : s.Inv contents m text all) (calls : ∀ f ∈ walk.calls, f.level = 0 ∧ f.rest.Tree f.dirName)
    (here : (s.goto walk).At text all) : (s.goto walk).Inv contents m text all :=
  inv.samePool inv.pool rfl inv.ended calls here

/-- `execute` is called for a directory whose searches are the next ones. -/
lemma call (inv : s.Inv contents m text all) (idle : s.pool.pc = .idle) (calm : s.pool.thrown = [])
    (outer : ∀ f ∈ calls, f.level = 0 ∧ f.rest.Tree f.dirName) (tree : listing.Tree dirName)
    (plan : s.threads ++ ((listing.files dirName).map (·, text) ++ searches text calls) = all) :
    (s.call dirName listing calls).Inv contents m text all := by
  have failed : (s.goto (.returned (-1))).Inv contents m text all :=
    inv.goto (fun f mem => absurd mem List.not_mem_nil) (.returned rfl idle fun zero => by cases zero)
  have found : (s.goto (.looking (⟨dirName, 0, listing⟩ :: calls))).Inv contents m text all := by
    refine inv.goto (List.forall_mem_cons.2 ⟨⟨rfl, tree⟩, outer⟩) (.looking rfl idle calm ?_ fun nil => by cases nil)
    rw [searches, List.flatMap_cons]
    exact plan
  rw [Process.call.eq_def]
  by_cases long : maxPath - 3 < stringCchLength dirName
  · rw [if_pos long]
    exact failed
  · rw [if_neg long]
    cases listing with
    | done => exact failed
    | file => exact found
    | dir => exact found

/-- A thread takes a step. -/
lemma searching (inv : s.Inv contents m text all) (thread : s.threads[t]? = some (fileName, text'))
    (next : Searches contents fileName text' t s.rf (s.searcher t) p rf) :
    Process.Inv contents m text all { s with rf, searcher := Function.update s.searcher t p } := by
  obtain ⟨order, written⟩ := inv.written
  have own (rest : List Char) (writing : s.searcher t = .writing rest) : s.rf.mutex = some t := by
    refine written.holder t rest ?_
    rw [Function.comp_apply, writing, Searcher.phase]
  have running (r : Nat) : s.searcher t ≠ .returned r := by
    intro returned
    rw [returned] at next
    cases next
  obtain ⟨lt, -⟩ := List.getElem?_eq_some_iff.1 thread
  have here : Process.At text all { s with rf, searcher := Function.update s.searcher t p } := by
    cases inv.here with
    | looking walk pc calm plan last => exact .looking walk pc calm plan last
    | adding walk inner pc calm plan => exact .adding walk inner pc calm plan
    | added walk inner pc plan => exact .added walk inner pc plan
    | waiting walk pc calm plan => exact .waiting walk pc calm plan
    | waited walk pc plan => exact .waited walk pc plan
    | returned walk pc complete => exact .returned walk pc complete
    | leaving walk pc complete => exact .leaving walk pc complete
    | left walk pc complete => exact .left walk pc complete
    | ended stop complete => exact .ended stop complete
  refine ⟨inv.pool, inv.calls, here, inv.begun, fun u le => ?_, fun u mem => ?_, fun {u file txt} thread' => ?_, ?_⟩
  · refine (Function.update_of_ne ?_ ..).trans (inv.new u le)
    rintro rfl
    exact absurd lt le.not_gt
  · obtain ⟨r, returned⟩ := inv.ended u mem
    refine ⟨r, (Function.update_of_ne ?_ ..).trans returned⟩
    rintro rfl
    exact running r returned
  · obtain rfl | ne := eq_or_ne u t
    · cases thread.symm.trans thread'
      dsimp only
      rw [Function.update_self]
      exact next.sound (inv.sound thread) own
    · dsimp only
      rw [Function.update_of_ne ne]
      exact inv.sound thread'
  · dsimp only
    rw [Function.comp_update]
    refine next.written written rfl ?_
    change resultLine (s.threads.getD t ([], [])).1 = _
    rw [List.getD_eq_getElem?_getD, thread, Option.getD_some]

/-- `addSearch` has a new thread. -/
lemma created (inv : s.Inv contents m text all) (alive : ¬ s.walk.Ended) (pinv : Pool.Inv m pool)
    (pc : s.pool.pc = .creating search) (pc' : pool.pc = .idle) (threads : pool.win.threads = s.threads ++ [search])
    (finished : pool.win.finished = s.pool.win.finished) : Process.Inv contents m text all { s with pool } := by
  have grown : Process.threads { s with pool } = s.threads ++ [search] := threads
  obtain ⟨calls, walk, inner, -, plan⟩ := inv.here.of_pending alive (congrArg Pc.pending pc)
  have plan' : Process.threads { s with pool } ++ searches text calls = all := by
    rw [grown, List.append_assoc]
    exact plan
  refine ⟨pinv, inv.calls, .added walk inner pc' fun _ => plan', ⟨_, plan'⟩, fun t le => ?_, ?_,
    fun {t f x} thread => ?_, ?_⟩
  · rw [grown, List.length_append] at le
    exact inv.new t (by omega)
  · rw [finished]
    exact inv.ended
  · rw [grown] at thread
    obtain lt | le := Nat.lt_or_ge t s.threads.length
    · rw [List.getElem?_append_left lt] at thread
      exact inv.sound thread
    · dsimp only
      rw [inv.new t le]
      trivial
  · obtain ⟨order, written⟩ := inv.written
    refine ⟨order, written.congr fun t begun => ?_⟩
    have lt : t < s.threads.length := by
      by_contra le
      rw [Function.comp_apply, inv.new t (Nat.le_of_not_lt le)] at begun
      exact begun rfl
    rw [Process.line, grown, List.getD_eq_getElem?_getD, List.getElem?_append_left lt, ← List.getD_eq_getElem?_getD]
    rfl

/-- A method of the pool goes on. -/
lemma called (inv : s.Inv contents m text all) (one : 1 ≤ m) (le : m ≤ maximumWaitObjects) (alive : ¬ s.walk.Ended)
    (isCall : IsCall e) (next : Pool.step s.pool e = some pool) : Process.Inv contents m text all { s with pool } := by
  have pinv := inv.pool.step one le next
  cases inv.pool.goes one le isCall next with
  | @waited search h pc eq =>
    obtain ⟨calls, walk, inner, calm, plan⟩ := inv.here.of_pending alive (congrArg Pc.pending pc)
    subst eq
    exact inv.samePool pinv rfl inv.ended inv.calls (.adding walk inner rfl calm plan)
  | @closed search h pc pc' threads finished thrown =>
    obtain ⟨calls, walk, inner, calm, plan⟩ := inv.here.of_pending alive (congrArg Pc.pending pc)
    refine inv.samePool pinv threads (by rw [finished]; exact inv.ended) inv.calls ?_
    refine .adding walk inner (by rw [pc']; rfl) (thrown.trans calm) ?_
    rw [Process.threads, threads]
    exact plan
  | @refused search pc eq =>
    obtain ⟨calls, walk, inner, -, -⟩ := inv.here.of_pending alive (congrArg Pc.pending pc)
    subst eq
    exact inv.samePool pinv rfl inv.ended inv.calls
      (.added walk inner rfl fun calm => absurd calm (List.append_ne_nil_of_right_ne_nil _ (List.cons_ne_nil _ _)))
  | created pc pc' threads finished => exact inv.created alive pinv pc pc' threads finished
  | waitedAll pc eq _ all =>
    obtain ⟨calls, walk, -, plan⟩ := inv.here.of_waitingAll alive pc
    subst eq
    exact inv.samePool pinv rfl inv.ended inv.calls (.waited walk rfl fun _ => ⟨plan, all⟩)
  | empty pc eq =>
    obtain ⟨calls, walk, -, -⟩ := inv.here.of_waitingAll alive pc
    subst eq
    exact inv.samePool pinv rfl inv.ended inv.calls
      (.waited walk rfl fun calm => absurd calm (List.append_ne_nil_of_right_ne_nil _ (List.cons_ne_nil _ _)))
  | destroyed pc pc' win =>
    obtain ⟨code, walk, complete⟩ := inv.here.of_destroying alive pc
    refine inv.samePool pinv (congrArg _ win) (by rw [win]; exact inv.ended) inv.calls
      (.left walk pc' fun zero => ?_)
    rw [Process.Complete, Process.threads, State.AllFinished, win]
    exact complete zero
  | destroying pc pc' threads finished =>
    obtain ⟨code, walk, complete⟩ := inv.here.of_destroying alive pc
    refine inv.samePool pinv threads (by rw [finished]; exact inv.ended) inv.calls (.leaving walk pc' fun zero => ?_)
    rw [Process.Complete, Process.threads, State.AllFinished, threads, finished]
    exact complete zero

/-- A thread that has returned ends. -/
lemma finish (inv : s.Inv contents m text all) (one : 1 ≤ m) (le : m ≤ maximumWaitObjects) {r : Nat}
    (returned : s.searcher t = .returned r) (next : Pool.step s.pool (.finish t) = some pool) :
    Process.Inv contents m text all { s with pool } := by
  have pinv := inv.pool.step one le next
  obtain ⟨-, rfl⟩ := State.of_finish next
  have more (done : s.pool.AllFinished) (u : Nat) (lt : u < s.threads.length) : u ∈ t :: s.pool.win.finished :=
    List.mem_cons_of_mem t (done u lt)
  refine inv.samePool pinv rfl (List.forall_mem_cons.2 ⟨⟨r, returned⟩, inv.ended⟩) inv.calls ?_
  cases inv.here with
  | looking walk pc calm plan last => exact .looking walk pc calm plan fun nil => more (last nil)
  | adding walk inner pc calm plan => exact .adding walk inner pc calm plan
  | added walk inner pc plan => exact .added walk inner pc plan
  | waiting walk pc calm plan => exact .waiting walk pc calm plan
  | waited walk pc plan => exact .waited walk pc fun calm => (plan calm).imp_right more
  | returned walk pc complete => exact .returned walk pc fun zero => (complete zero).imp_right more
  | leaving walk pc complete => exact .leaving walk pc fun zero => (complete zero).imp_right more
  | left walk pc complete => exact .left walk pc fun zero => (complete zero).imp_right more
  | ended stop complete => exact .ended stop fun zero => (complete zero).imp_right more

/-- The innermost call is the one whose searches come next. -/
lemma frame {f : Frame} (inv : s.Inv contents m text all) (walk : s.walk = .looking (f :: calls)) :
    s.pool.pc = .idle ∧ s.pool.thrown = [] ∧
      s.threads ++ ((f.rest.files f.dirName).map (·, text) ++ searches text calls) = all ∧
      (f.level = 0 ∧ f.rest.Tree f.dirName) ∧ ∀ g ∈ calls, g.level = 0 ∧ g.rest.Tree g.dirName := by
  obtain ⟨pc, calm, plan, -⟩ := inv.here.of_looking walk
  rw [searches, List.flatMap_cons] at plan
  have frames := inv.calls
  rw [walk] at frames
  exact ⟨pc, calm, plan, List.forall_mem_cons.1 frames⟩

/-- The next entry of a directory is looked at. -/
lemma entry {f : Frame} {level : Nat} (inv : s.Inv contents m text all) (walk : s.walk = .looking (f :: calls))
    (zero : level = f.level) (tree : listing.Tree dirName) (same : listing.files dirName = f.rest.files f.dirName) :
    (s.goto (.looking (⟨dirName, level, listing⟩ :: calls))).Inv contents m text all := by
  obtain ⟨pc, calm, plan, ⟨outermost, -⟩, outer⟩ := inv.frame walk
  refine inv.goto (List.forall_mem_cons.2 ⟨⟨zero.trans outermost, tree⟩, outer⟩)
    (.looking rfl pc calm ?_ fun nil => by cases nil)
  rw [searches, List.flatMap_cons, same]
  exact plan

/-- `addSearch` is called for the next file. -/
lemma file {level : Nat} {name : List Char} {next : Listing} (inv : s.Inv contents m text all) (one : 1 ≤ m)
    (le : m ≤ maximumWaitObjects) (walk : s.walk = .looking (⟨dirName, level, .file name next⟩ :: calls))
    (dots : ¬ IsDots name) (begin : Pool.step s.pool (.addSearch (filePath dirName name) text) = some pool) :
    Process.Inv contents m text all { s with pool, walk := .adding (⟨dirName, level, next⟩ :: calls) } := by
  have pinv := inv.pool.step one le begin
  obtain ⟨pc, calm, plan, ⟨outermost, tree⟩, outer⟩ := inv.frame walk
  have frames : ∀ f ∈ (⟨dirName, level, next⟩ :: calls : List Frame), f.level = 0 ∧ f.rest.Tree f.dirName :=
    List.forall_mem_cons.2 ⟨⟨outermost, tree.2⟩, outer⟩
  rw [filePath_eq (tree.1 dots)] at begin
  rw [Listing.files, if_neg dots] at plan
  have plan' : s.threads ++ (join dirName name, text) :: searches text (⟨dirName, level, next⟩ :: calls) = all := by
    rw [searches, List.flatMap_cons]
    exact plan
  cases moves_of_step begin with
  | wait => exact inv.samePool pinv rfl inv.ended frames (.adding rfl (List.cons_ne_nil _ _) rfl calm plan')
  | create => exact inv.samePool pinv rfl inv.ended frames (.adding rfl (List.cons_ne_nil _ _) rfl calm plan')

/-- `execute` is called for the next directory. -/
lemma dir {level : Nat} {name : List Char} {sub next : Listing} (inv : s.Inv contents m text all)
    (walk : s.walk = .looking (⟨dirName, level, .dir name sub next⟩ :: calls)) (dots : ¬ IsDots name) :
    (s.call (filePath dirName name) sub (⟨dirName, level, next⟩ :: calls)).Inv contents m text all := by
  obtain ⟨pc, calm, plan, ⟨outermost, tree⟩, outer⟩ := inv.frame walk
  obtain ⟨fits, -, subtree⟩ := tree.1 dots
  rw [filePath_eq fits]
  refine inv.call pc calm (List.forall_mem_cons.2 ⟨⟨outermost, tree.2⟩, outer⟩) subtree ?_
  rw [Listing.files, if_neg dots, List.map_append, List.append_assoc] at plan
  rw [searches, List.flatMap_cons]
  exact plan

/-- The step lemma. -/
lemma takes (inv : s.Inv contents m text all) (one : 1 ≤ m) (le : m ≤ maximumWaitObjects)
    (next : Takes contents text s s') : s'.Inv contents m text all := by
  cases next with
  | end_ walk =>
    obtain ⟨pc, -, plan, last⟩ := inv.here.of_looking walk
    rw [searches, List.flatMap_nil, List.append_nil] at plan
    exact inv.goto (fun f mem => absurd mem List.not_mem_nil) (.returned rfl pc fun _ => ⟨plan, last rfl⟩)
  | skipFile walk dots =>
    obtain ⟨-, -, -, ⟨-, tree⟩, -⟩ := inv.frame walk
    exact inv.entry walk rfl tree.2 (by rw [Listing.files, if_pos dots])
  | skipDir walk dots =>
    obtain ⟨-, -, -, ⟨-, tree⟩, -⟩ := inv.frame walk
    exact inv.entry walk rfl tree.2 (by rw [Listing.files, if_pos dots])
  | file walk dots begin => exact inv.file one le walk dots begin
  | dir walk dots => exact inv.dir walk dots
  | done walk zero begin =>
    have pinv := inv.pool.step one le begin
    obtain ⟨pc, calm, plan, -, outer⟩ := inv.frame walk
    cases moves_of_step begin
    exact inv.samePool pinv rfl inv.ended outer (.waiting rfl rfl calm plan)
  | doneSub walk zero =>
    obtain ⟨-, -, -, ⟨outermost, -⟩, -⟩ := inv.frame walk
    exact absurd outermost zero
  | added walk pc =>
    have frames := inv.calls
    rw [walk] at frames
    cases inv.here with
    | added walk' inner _ plan =>
      cases walk.symm.trans walk'
      split_ifs with calm
      · exact inv.goto frames (.looking rfl pc calm (plan calm) fun nil => absurd nil inner)
      · exact inv.goto (fun f mem => absurd mem List.not_mem_nil) (.returned rfl pc fun zero => by cases zero)
    | adding _ _ pending =>
      rw [pc] at pending
      cases pending
    | looking walk' | waiting walk' | waited walk' | returned walk' | leaving walk' | left walk' =>
      cases walk.symm.trans walk'
    | ended stop =>
      rw [walk] at stop
      exact stop.elim
  | waited walk pc =>
    have frames := inv.calls
    rw [walk] at frames
    cases inv.here with
    | waited walk' _ plan =>
      cases walk.symm.trans walk'
      split_ifs with calm
      · exact inv.goto frames (.looking rfl pc calm (plan calm).1 fun _ => (plan calm).2)
      · exact inv.goto (fun f mem => absurd mem List.not_mem_nil) (.ended trivial fun eq => by cases eq)
    | waiting _ pc' => cases pc.symm.trans pc'
    | looking walk' | adding walk' | added walk' | returned walk' | leaving walk' | left walk' =>
      cases walk.symm.trans walk'
    | ended stop =>
      rw [walk] at stop
      exact stop.elim
  | @leave r _ walk begin =>
    have pinv := inv.pool.step one le begin
    cases moves_of_step begin
    cases inv.here with
    | returned walk' _ complete =>
      cases walk.symm.trans walk'
      refine inv.samePool pinv rfl inv.ended (fun f mem => absurd mem List.not_mem_nil) (.leaving rfl rfl fun zero => ?_)
      split_ifs at zero with failed
      exact complete (not_not.1 failed)
    | looking walk' | adding walk' | added walk' | waiting walk' | waited walk' | leaving walk' | left walk' =>
      cases walk.symm.trans walk'
    | ended stop =>
      rw [walk] at stop
      exact stop.elim
  | exit walk pc =>
    cases inv.here with
    | left walk' _ complete =>
      cases walk.symm.trans walk'
      refine inv.goto (fun f mem => absurd mem List.not_mem_nil) (.ended trivial fun exited => complete ?_)
      cases exited
      rfl
    | leaving _ pc' => cases pc.symm.trans pc'
    | looking walk' | adding walk' | added walk' | waiting walk' | waited walk' | returned walk' =>
      cases walk.symm.trans walk'
    | ended stop =>
      rw [walk] at stop
      exact stop.elim
  | call alive isCall next => exact inv.called one le alive isCall next
  | search _ thread next => exact inv.searching thread next
  | finish _ returned next => exact inv.finish one le returned next

/-- Nothing has been done at the start. -/
lemma start (tree : listing.Tree dirName) :
    (Process.start m dirName listing).Inv contents m text ((listing.files dirName).map (·, text)) := by
  -- the call does not depend on where the main thread has been
  let s : Process := ⟨.start ⟨m, 0, List.replicate m NULL⟩, .returned (-1), ⟨[], none⟩, fun _ => .opening⟩
  have inv : s.Inv contents m text ((listing.files dirName).map (·, text)) := by
    have here : s.At text ((listing.files dirName).map (·, text)) := .returned rfl rfl fun zero => by cases zero
    exact ⟨.start m, fun f mem => absurd mem List.not_mem_nil, here, List.nil_prefix, fun t _ => rfl,
      fun t mem => absurd mem List.not_mem_nil, fun _ => trivial, [], .start fun t => rfl⟩
  change (s.call dirName listing []).Inv _ _ _ _
  refine inv.call rfl rfl (fun f mem => absurd mem List.not_mem_nil) tree ?_
  rw [searches, List.flatMap_nil, List.append_nil]
  rfl

/-- The run lemma. -/
lemma run {turns : List Turn} (inv : s.Inv contents m text all) (one : 1 ≤ m) (le : m ≤ maximumWaitObjects)
    (run : s.run contents text turns = some s') : s'.Inv contents m text all := by
  induction turns generalizing s with
  | nil =>
    cases run
    exact inv
  | cons turn turns ih =>
    obtain ⟨s₁, first, rest⟩ := Option.bind_eq_some_iff.1 run
    exact ih (inv.takes one le (takes_of_step first)) rest

end Process.Inv

/-- The files with the text. -/
def foundFiles (contents : List Char → Option (List Char)) (text : List Char) (files : List (List Char)) :
    List (List Char) := files.filter fun file => Hits contents text file

/-- The file of a thread. -/
def Process.file (s : Process) (t : Nat) : List Char := (s.threads.getD t ([], [])).1

section

variable {files : List (List Char)} (inv : s.Inv contents m text (files.map (·, text)))
include inv

/-- What a thread has found out about its file is right. -/
lemma Process.Inv.sound_file (lt : t < s.threads.length) : (s.searcher t).Sound contents (s.file t) text := by
  have thread : s.threads[t]? = some s.threads[t] := List.getElem?_eq_getElem lt
  obtain ⟨file, -, eq⟩ := List.mem_map.1 (inv.begun.subset (List.getElem_mem lt))
  rw [← eq] at thread
  rw [Process.file, List.getD_eq_getElem?_getD, thread, Option.getD_some]
  exact inv.sound thread

/-- A thread that is writing, or has written, has found the text in its file. -/
lemma Process.Inv.hits (begun : (s.searcher t).phase ≠ .before) :
    t < s.threads.length ∧ Hits contents text (s.file t) := by
  have lt : t < s.threads.length := by
    by_contra le
    rw [inv.new t (Nat.le_of_not_lt le)] at begun
    exact begun rfl
  have sound := inv.sound_file lt
  refine ⟨lt, ?_⟩
  cases p : s.searcher t with
  | opening | reading | locking | terminated =>
    rw [p] at begun
    exact absurd rfl begun
  | writing =>
    rw [p] at sound
    exact sound
  | returned r =>
    rw [p] at begun sound
    obtain ⟨-, hits⟩ | ⟨rfl, -⟩ := sound
    · exact hits
    · exact absurd rfl begun

/-- The files of the threads. -/
lemma Process.Inv.map_file : (List.range s.threads.length).map s.file <+: files := by
  have names : (List.range s.threads.length).map s.file = s.threads.map Prod.fst := by
    refine List.ext_getElem ?_ fun t lt _ => ?_
    · rw [List.length_map, List.length_range, List.length_map]
    · rw [List.length_map, List.length_range] at lt
      rw [List.getElem_map, List.getElem_range, List.getElem_map, Process.file, List.getD_eq_getElem?_getD,
        List.getElem?_eq_getElem lt, Option.getD_some]
  have begun := inv.begun.map Prod.fst
  rw [List.map_map] at begun
  have same : files.map (Prod.fst ∘ (·, text)) = files := List.map_id files
  rw [same] at begun
  rw [names]
  exact begun

/-- The threads that find the text, by their files. -/
lemma Process.Inv.map_found :
    ((List.range s.threads.length).filter fun t => Hits contents text (s.file t)).map s.file <+:
      foundFiles contents text files := by
  have found := inv.map_file.filter fun file => decide (Hits contents text file)
  rw [List.filter_map] at found
  exact found

/-- Threads that are writing, or have written, are some of those that find the text. -/
lemma Process.Inv.subperm {order : List Nat} (nodup : order.Nodup)
    (begun : ∀ t ∈ order, (s.searcher t).phase ≠ .before) :
    (order.map s.file).Subperm (foundFiles contents text files) := by
  have some_ : order ⊆ (List.range s.threads.length).filter fun t => Hits contents text (s.file t) := by
    intro t mem
    obtain ⟨lt, hits⟩ := inv.hits (begun t mem)
    exact List.mem_filter.2 ⟨List.mem_range.2 lt, decide_eq_true hits⟩
  obtain ⟨l, perm, sub⟩ := nodup.subperm some_
  exact ⟨l.map s.file, perm.map s.file, (sub.map s.file).trans inv.map_found.sublist⟩

/-- Whole lines have been written, and a part of another one when somebody owns the mutex. -/
lemma Process.Inv.output : ∃ lines : List (List Char), lines.Subperm (foundFiles contents text files) ∧
    s.rf.of <+: lines.flatMap resultLine ∧ (s.rf.mutex = none → s.rf.of = lines.flatMap resultLine) := by
  obtain ⟨order, written⟩ := inv.written
  have lines (order : List Nat) : order.flatMap s.line = (order.map s.file).flatMap resultLine := by
    rw [List.flatMap_map]
    rfl
  have done (t : Nat) (mem : t ∈ order) : (s.searcher t).phase ≠ .before := by
    have after := (written.done t).1 mem
    rw [Function.comp_apply] at after
    rw [after]
    exact nofun
  cases owner : s.rf.mutex with
  | none =>
    have eq := (written.free owner).trans (lines order)
    exact ⟨order.map s.file, inv.subperm written.nodup done, eq ▸ List.prefix_rfl, fun _ => eq⟩
  | some t =>
    obtain ⟨part, rest, writing, split, eq⟩ := written.held t owner
    rw [Function.comp_apply] at writing
    have new : t ∉ order := by
      rw [written.done, Function.comp_apply, writing]
      exact nofun
    refine ⟨(order ++ [t]).map s.file, inv.subperm ?_ ?_, ?_, nofun⟩
    · exact written.nodup.append (List.nodup_singleton t) (List.disjoint_singleton.2 new)
    · intro u mem
      cases List.mem_append.1 mem with
      | inl mem => exact done u mem
      | inr mem =>
        rw [List.mem_singleton.1 mem, writing]
        exact nofun
    · rw [← lines, List.flatMap_append, List.flatMap_singleton, eq, split]
      exact (List.prefix_append_right_inj _).2 (List.prefix_append part rest)

/-- When all searches have finished, there is a line for each file with the text. -/
lemma Process.Inv.complete (complete : s.Complete (files.map (·, text))) :
    ∃ lines : List (List Char), lines.Perm (foundFiles contents text files) ∧ s.rf.of = lines.flatMap resultLine := by
  obtain ⟨whole, finished⟩ := complete
  obtain ⟨order, written⟩ := inv.written
  have returned {t : Nat} (lt : t < s.threads.length) : ∃ r, s.searcher t = .returned r := inv.ended t (finished t lt)
  have free : s.rf.mutex = none := by
    cases owner : s.rf.mutex with
    | none => rfl
    | some t =>
      obtain ⟨part, rest, writing, -⟩ := written.held t owner
      rw [Function.comp_apply] at writing
      obtain ⟨r, eq⟩ := returned (inv.hits (t := t) (by rw [writing]; exact nofun)).1
      rw [eq, Searcher.phase] at writing
      split_ifs at writing
  have perm : order.Perm ((List.range s.threads.length).filter fun t => Hits contents text (s.file t)) := by
    refine (List.perm_ext_iff_of_nodup written.nodup (List.nodup_range.filter _)).2 fun t => ?_
    rw [written.done, Function.comp_apply, List.mem_filter, List.mem_range, decide_eq_true_iff]
    constructor
    · exact fun after => inv.hits (by rw [after]; exact nofun)
    · rintro ⟨lt, hits⟩
      obtain ⟨r, eq⟩ := returned lt
      have sound := inv.sound_file lt
      rw [eq] at sound ⊢
      obtain ⟨rfl, -⟩ | ⟨-, no⟩ := sound
      · rw [Searcher.phase, if_pos rfl]
      · exact absurd hits no
  refine ⟨order.map s.file, ?_, ?_⟩
  · have all : (List.range s.threads.length).map s.file = files := by
      refine inv.map_file.eq_of_length ?_
      rw [List.length_map, List.length_range, whole, List.length_map]
    have found : ((List.range s.threads.length).filter fun t => Hits contents text (s.file t)).map s.file =
        foundFiles contents text files := by
      conv_rhs => rw [foundFiles, ← all, List.filter_map]
      rfl
    rw [← found]
    exact perm.map s.file
  · rw [written.free free, List.flatMap_map]
    rfl

end

end

/-- Whatever the order in which the main thread and the searches take their turns, until the process has exited the result
file has the names of files with the text, one on each line and none more often than in the tree, and the last line is
complete unless a thread owns the mutex. When the program exits with `0`, it has a line for each file with the text, and
no thread is left that could use the result file after it has been destroyed. -/
theorem grep_output {contents : List Char → Option (List Char)} {m : Nat} {text dirName : List Char} {listing : Listing}
    {turns : List Turn} {s : Process} (one : 1 ≤ m) (le : m ≤ maximumWaitObjects) (tree : listing.Tree dirName)
    (run : (Process.start m dirName listing).run contents text turns = some s) :
    (∃ lines : List (List Char), lines.Subperm (foundFiles contents text (listing.files dirName)) ∧
      s.rf.of <+: lines.flatMap resultLine ∧ (s.rf.mutex = none → s.rf.of = lines.flatMap resultLine)) ∧
    (s.walk = .exited 0 → s.pool.AllFinished ∧ ∃ lines : List (List Char),
      lines.Perm (foundFiles contents text (listing.files dirName)) ∧ s.rf.of = lines.flatMap resultLine) := by
  have start : (Process.start m dirName listing).Inv contents m text ((listing.files dirName).map (·, text)) :=
    .start tree
  have inv := start.run one le run
  refine ⟨inv.output, fun exited => ?_⟩
  have complete : s.Complete ((listing.files dirName).map (·, text)) := by
    cases inv.here with
    | ended _ complete => exact complete exited
    | looking walk | adding walk | added walk | waiting walk | waited walk | returned walk | leaving walk | left walk =>
      cases exited.symm.trans walk
  exact ⟨complete.2, inv.complete complete⟩

/-- Two searches at a time; the second one, which finds nothing, is done before the first. -/
theorem grep_output_two : ∃ contents turns s,
    (Process.start 2 ['r'] (.dots (.file ['a'] (.file ['b'] .done)))).run contents ['x'] turns = some s ∧
      s.walk = .exited 0 ∧ s.rf.of = ['r', '\\', 'a', '\n'] ∧ s.pool.AllFinished ∧
      ∃ lines : List (List Char), lines.Perm (foundFiles contents ['x']
        ((Listing.dots (.file ['a'] (.file ['b'] .done))).files ['r'])) ∧ s.rf.of = lines.flatMap resultLine := by
  let contents (file : List Char) : Option (List Char) :=
    if file = ['r', '\\', 'a'] then some ['u', '\n', 'x'] else some ['y']
  let turns : List Turn := [.main, .main, .main, .call (.created 4), .search 0, .search 0, .main, .main,
    .call (.created 8), .search 1, .search 1, .search 1, .search 1, .search 0, .search 0, .main, .main, .search 0,
    .search 0, .search 0, .search 0, .search 0, .search 0, .call (.waited 0), .main, .main, .main, .call .close,
    .call .close, .call .close, .main]
  have tree : (Listing.dots (.file ['a'] (.file ['b'] .done))).Tree ['r'] := by
    simp [Listing.dots, Listing.Tree, join, maxPath]
  obtain ⟨s, run, walk, file⟩ : ∃ s, (Process.start 2 ['r'] (.dots (.file ['a'] (.file ['b'] .done)))).run contents ['x']
    turns = some s ∧ s.walk = .exited 0 ∧ s.rf.of = ['r', '\\', 'a', '\n'] := ⟨_, rfl, rfl, rfl⟩
  exact ⟨contents, turns, s, run, walk, file, (grep_output (by decide) (by decide) tree run).2 walk⟩

end PDS.Cpp
