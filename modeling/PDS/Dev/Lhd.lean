import PDS.Kern.Machine
import PDS.Lib.Family

/-!
# The disk driver

Port of `kern/dev/lamebus/lhd.c`, for any number of threads in `lhd_io` on one disk. A thread stops between the accesses
to the semaphores, to the registers and to the buffer of the card (`LhdPc`), and the interrupt handler between its own
(`IrqPc`); any of them, or the device, may make the next step (`LhdStep`). The device finishes each operation that has
been started once, with any of its result codes, and touches its buffer only when it finishes a read. A sector holds
data of any type `D`.
-/

namespace PDS.Dev
open Kern Word Family

/-- I/O error (C `EIO`). -/
def eio : Nat := 32

/-- Operation would block (C `EAGAIN`). -/
def eagain : Nat := 4

/-! The status codes of the device. -/

/-- Operation in progress (C `LHD_WORKING`). -/
def lhdWorking : Nat := 1

/-- The operation is a write (C `LHD_ISWRITE`). -/
def lhdIswrite : Nat := 2

/-- Operation succeeded (C `LHD_OK`). -/
def lhdOk : Nat := 4

/-- Invalid sector requested (C `LHD_INVSECT`). -/
def lhdInvsect : Nat := 12

/-- Media error (C `LHD_MEDIA`). -/
def lhdMedia : Nat := 20

/-- Mask for masking out `LHD_ISWRITE` (C `LHD_STATEMASK`). -/
def lhdStatemask : Nat := 0x1d

/-- Convert a result code from the hardware to an errno value (C `lhd_code_to_errno`). -/
def lhdCodeToErrno (code : Nat) : Nat :=
  if code &&& lhdStatemask = lhdOk then 0
  else if code &&& lhdStatemask = lhdInvsect then einval
  else if code &&& lhdStatemask = lhdMedia then eio
  else eagain

/-- The status of a finished operation. -/
def lhdFinished (val : Nat) : Bool :=
  val &&& lhdStatemask = lhdOk || val &&& lhdStatemask = lhdInvsect || val &&& lhdStatemask = lhdMedia

/-- The value to write into the status register. -/
def lhdStatval (write : Bool) : Nat := if write then lhdWorking ||| lhdIswrite else lhdWorking

/-- The sectors of a request. -/
structure LhdReq where
  write : Bool
  sector : Nat
  len : Nat
deriving DecidableEq, Repr

/-- The checks at the start of `lhd_io`; `none` is `EINVAL`. -/
def lhdRequest (blocks offset resid : Nat) (write : Bool) : Option LhdReq :=
  let sector := offset / 512 % 2 ^ 32
  let sectoff := offset % 512
  let len := resid / 512 % 2 ^ 32
  let lenoff := resid % 512
  if sectoff ≠ 0 ∨ lenoff ≠ 0 then none
  else if wadd 32 sector len > blocks then none
  else some ⟨write, sector, len⟩

/-- Where a thread is in `lhd_io`; in the loop, it is at sector number `i` of its request. -/
inductive LhdPc (D : Type) where
  | out
  /-- at the head of the loop -/
  | loop (r : LhdReq) (i : Nat)
  /-- after `P(lh->lh_clear)` -/
  | fill (r : LhdReq) (i : Nat)
  /-- `uiomove` has failed; before `V(lh->lh_clear)` -/
  | abort
  /-- before the sector register is written -/
  | sect (r : LhdReq) (i : Nat)
  /-- before the status register is written -/
  | start (r : LhdReq) (i : Nat)
  /-- before `P(lh->lh_done)`, for operation number `n` -/
  | wait (r : LhdReq) (i n : Nat)
  /-- before `lh_result` is read -/
  | result (r : LhdReq) (i n : Nat)
  /-- before the data is moved out of the buffer -/
  | copy (r : LhdReq) (i n : Nat)
  /-- before `V(lh->lh_clear)`, with the result of the operation, that of the transfer, and the data that was moved -/
  | finish (r : LhdReq) (i n res ret : Nat) (got : Option D)

/-- The thread is between `P(lh->lh_clear)` and `V(lh->lh_clear)`. -/
def LhdPc.inside {D : Type} : LhdPc D → Bool
  | out | loop _ _ => false
  | _ => true

/-- Where the interrupt handler is. -/
inductive IrqPc where
  | idle
  /-- the status register has been read, and is to be cleared -/
  | ack (val : Nat)
  /-- before the result is stored -/
  | store (err : Nat)
  /-- before `V(lh->lh_done)` -/
  | post
deriving DecidableEq, Repr

/-- An operation that has been started; when it is finished, its code and what the sector holds. -/
structure LhdOp (T D : Type) where
  issuer : T
  sector : Nat
  write : Bool
  done : Option (Nat × D)

/-- The transfer of a sector that has returned to a thread. -/
structure LhdXfer (T D : Type) where
  thread : T
  req : LhdReq
  i : Nat
  /-- number of the operation -/
  op : Nat
  /-- the result of the operation -/
  res : Nat
  /-- the result of the transfer -/
  ret : Nat
  /-- what has been moved out of the buffer -/
  got : Option D

/-- The driver and the device (C `struct lhd_softc`), with the operations started and the transfers returned so far. -/
structure Lhd (T D : Type) where
  clear : Nat
  done : Nat
  result : Nat
  stat : Nat
  sect : Nat
  buf : D
  platter : Nat → D
  irq : IrqPc
  pc : T → LhdPc D
  nops : Nat
  ops : Nat → LhdOp T D
  xfers : List (LhdXfer T D)

variable {T D : Type} [DecidableEq T]

/-- The thread `t` goes on to `pc`. -/
def Lhd.goto (s : Lhd T D) (t : T) (pc : LhdPc D) : Lhd T D := { s with pc := Function.update s.pc t pc }

/-- The operation that is started. -/
def Lhd.startOp (s : Lhd T D) (op : LhdOp T D) : Lhd T D :=
  { s with nops := s.nops + 1, ops := Function.update s.ops s.nops op }

/-- What the device does when it finishes an operation that is not in error. -/
def Lhd.transfer (s : Lhd T D) : Lhd T D :=
  if s.stat &&& lhdIswrite = 0 then { s with buf := s.platter s.sect }
  else { s with platter := Function.update s.platter s.sect s.buf }

/-- The operation number `n` is finished with a code. -/
def Lhd.finishOp (s : Lhd T D) (n code : Nat) : Lhd T D :=
  { s with ops := Function.update s.ops n { s.ops n with done := some (code, s.platter (s.ops n).sector) } }

/-- One step of a thread, of the device, or of the interrupt handler. -/
inductive LhdStep (blocks : Nat) : Lhd T D → Lhd T D → Prop where
  /-- `lhd_io` is called -/
  | call {s t offset resid write r} : s.pc t = .out → lhdRequest blocks offset resid write = some r →
    LhdStep blocks s (s.goto t (.loop r 0))
  /-- all sectors are done -/
  | leave {s t r i} : s.pc t = .loop r i → i = r.len → LhdStep blocks s (s.goto t .out)
  /-- `P(lh->lh_clear)` -/
  | pClear {s t r i} : s.pc t = .loop r i → i < r.len → 0 < s.clear →
    LhdStep blocks s { s.goto t (.fill r i) with clear := s.clear - 1 }
  /-- `uiomove` to the buffer -/
  | fill {s t r i d} : s.pc t = .fill r i → r.write = true →
    LhdStep blocks s { s.goto t (.sect r i) with buf := d }
  /-- `uiomove` fails, perhaps after it has changed the buffer -/
  | fillFails {s t r i d} : s.pc t = .fill r i → r.write = true →
    LhdStep blocks s { s.goto t .abort with buf := d }
  /-- `V(lh->lh_clear)` on the way out -/
  | abort {s t} : s.pc t = .abort → LhdStep blocks s { s.goto t .out with clear := s.clear + 1 }
  /-- nothing is moved before a read -/
  | noFill {s t r i} : s.pc t = .fill r i → r.write = false → LhdStep blocks s (s.goto t (.sect r i))
  /-- `lhd_wreg(lh, LHD_REG_SECT, sector+i)` -/
  | sect {s t r i} : s.pc t = .sect r i →
    LhdStep blocks s { s.goto t (.start r i) with sect := wadd 32 r.sector i }
  /-- `lhd_wreg(lh, LHD_REG_STAT, statval)` -/
  | start {s t r i} : s.pc t = .start r i →
    LhdStep blocks s ({ s.goto t (.wait r i s.nops) with stat := lhdStatval r.write }.startOp
      ⟨t, wadd 32 r.sector i, r.write, none⟩)
  /-- `P(lh->lh_done)` -/
  | pDone {s t r i n} : s.pc t = .wait r i n → 0 < s.done →
    LhdStep blocks s { s.goto t (.result r i n) with done := s.done - 1 }
  /-- the result is read, and there is data to be moved -/
  | success {s t r i n} : s.pc t = .result r i n → s.result = 0 → r.write = false →
    LhdStep blocks s (s.goto t (.copy r i n))
  /-- the result is read, and there is none -/
  | result {s t r i n} : s.pc t = .result r i n → ¬ (s.result = 0 ∧ r.write = false) →
    LhdStep blocks s (s.goto t (.finish r i n s.result s.result none))
  /-- `uiomove` from the buffer -/
  | copy {s t r i n} : s.pc t = .copy r i n → LhdStep blocks s (s.goto t (.finish r i n 0 0 (some s.buf)))
  /-- `uiomove` fails -/
  | copyFails {s t r i n e} : s.pc t = .copy r i n → e ≠ 0 → LhdStep blocks s (s.goto t (.finish r i n 0 e none))
  /-- `V(lh->lh_clear)`, and the transfer of the sector is over -/
  | finish {s t r i n res ret got} : s.pc t = .finish r i n res ret got →
    LhdStep blocks s { s.goto t (if ret = 0 then .loop r (i + 1) else .out) with
      clear := s.clear + 1, xfers := ⟨t, r, i, n, res, ret, got⟩ :: s.xfers }
  /-- the device finishes an operation with success -/
  | deviceOk {s} : s.stat &&& lhdStatemask = lhdWorking →
    LhdStep blocks s { (s.finishOp (s.nops - 1) lhdOk).transfer with stat := lhdOk ||| (s.stat &&& lhdIswrite) }
  /-- the device finishes an operation with an error -/
  | deviceFails {s code} : s.stat &&& lhdStatemask = lhdWorking → code = lhdInvsect ∨ code = lhdMedia →
    LhdStep blocks s { s.finishOp (s.nops - 1) code with stat := code ||| (s.stat &&& lhdIswrite) }
  /-- the handler reads the status register; if no operation is finished, it does nothing -/
  | irq {s} : s.irq = .idle → lhdFinished s.stat = true → LhdStep blocks s { s with irq := .ack s.stat }
  /-- `lhd_wreg(lh, LHD_REG_STAT, 0)` -/
  | ack {s val} : s.irq = .ack val →
    LhdStep blocks s { s with stat := 0, irq := .store (lhdCodeToErrno val) }
  /-- `lh->lh_result = err` -/
  | store {s err} : s.irq = .store err → LhdStep blocks s { s with result := err, irq := .post }
  /-- `V(lh->lh_done)` -/
  | post {s} : s.irq = .post → LhdStep blocks s { s with done := s.done + 1, irq := .idle }

/-- The driver after `config_lhd`. -/
def configLhd (buf : D) (platter : Nat → D) (ops : Nat → LhdOp T D) : Lhd T D :=
  ⟨1, 0, 0, 0, 0, buf, platter, .idle, fun _ => .out, 0, ops, []⟩

/-- The states of the runs. -/
inductive LhdReach (blocks : Nat) : Lhd T D → Prop where
  | config {buf platter ops} : LhdReach blocks (configLhd buf platter ops)
  | step {s s'} : LhdReach blocks s → LhdStep blocks s s' → LhdReach blocks s'

/-- The code of a finished operation. -/
def IsCode (code : Nat) : Prop := code = lhdOk ∨ code = lhdInvsect ∨ code = lhdMedia

/-- No operation is under way. -/
structure Lhd.Quiet (s : Lhd T D) : Prop where
  stat : s.stat = 0
  done : s.done = 0
  irq : s.irq = .idle
  ops : ∀ n < s.nops, (s.ops n).done ≠ none

/-- The last operation is number `n`, and `t` has issued it for sector number `i` of `r`. -/
structure Lhd.Issued (s : Lhd T D) (t : T) (r : LhdReq) (i n : Nat) : Prop where
  last : s.nops = n + 1
  issuer : (s.ops n).issuer = t
  sector : (s.ops n).sector = wadd 32 r.sector i
  write : (s.ops n).write = r.write
  older : ∀ m < n, (s.ops m).done ≠ none

/-- Operation number `n` is finished with `code`, and what a read has put into the buffer is still there. -/
structure Lhd.Finished (s : Lhd T D) (write : Bool) (n code : Nat) (data : D) : Prop where
  isCode : IsCode code
  done : (s.ops n).done = some (code, data)
  buf : code = lhdOk → write = false → s.buf = data

/-- How far the operation is that a thread waits for. -/
inductive Lhd.Stage (s : Lhd T D) (write : Bool) (n : Nat) : Prop
  | working : s.stat = lhdStatval write → s.done = 0 → s.irq = .idle → (s.ops n).done = none → Stage s write n
  | finished {code data} : s.Finished write n code data → s.stat = code ||| (lhdStatval write &&& lhdIswrite) →
      s.done = 0 → s.irq = .idle → Stage s write n
  | ack {code data} : s.Finished write n code data → s.stat = code ||| (lhdStatval write &&& lhdIswrite) →
      s.done = 0 → s.irq = .ack (code ||| (lhdStatval write &&& lhdIswrite)) → Stage s write n
  | store {code data} : s.Finished write n code data → s.stat = 0 → s.done = 0 →
      s.irq = .store (lhdCodeToErrno code) → Stage s write n
  | post {code data} : s.Finished write n code data → s.stat = 0 → s.done = 0 → s.irq = .post →
      s.result = lhdCodeToErrno code → Stage s write n
  | done {code data} : s.Finished write n code data → s.stat = 0 → s.done = 1 → s.irq = .idle →
      s.result = lhdCodeToErrno code → Stage s write n

/-- What holds while `t` is at `pc` with the device to itself. -/
def Lhd.Phase (s : Lhd T D) (t : T) : LhdPc D → Prop
  | .out => True
  | .loop _ _ => True
  | .fill _ _ => s.Quiet
  | .abort => s.Quiet
  | .sect _ _ => s.Quiet
  | .start r i => s.Quiet ∧ s.sect = wadd 32 r.sector i
  | .wait r i n => s.Issued t r i n ∧ s.sect = wadd 32 r.sector i ∧ s.Stage r.write n
  | .result r i n => s.Quiet ∧ s.Issued t r i n ∧ ∃ code data, s.Finished r.write n code data ∧ s.result = lhdCodeToErrno code
  | .copy r i n => s.Quiet ∧ s.Issued t r i n ∧ r.write = false ∧ ∃ data, s.Finished r.write n lhdOk data
  | .finish r i n res ret got => s.Quiet ∧ s.Issued t r i n ∧ (res ≠ 0 ∨ r.write = true → ret = res) ∧
      ∃ code data, s.Finished r.write n code data ∧ res = lhdCodeToErrno code ∧ (ret = 0 → r.write = false → got = some data)

/-- What holds while `owner` has the device to itself. -/
def Lhd.Owned (s : Lhd T D) : Option T → Prop
  | none => s.Quiet
  | some t => s.Phase t (s.pc t)

/-- A transfer has returned the result of its own operation, and the data. -/
def Lhd.Right (s : Lhd T D) (x : LhdXfer T D) : Prop :=
  ∃ code data, s.ops x.op = ⟨x.thread, wadd 32 x.req.sector x.i, x.req.write, some (code, data)⟩ ∧ x.op < s.nops ∧
    IsCode code ∧ x.res = lhdCodeToErrno code ∧ (x.res ≠ 0 ∨ x.req.write = true → x.ret = x.res) ∧
    (x.ret = 0 → x.req.write = false → x.got = some data)

/-- The invariant of the runs, while `owner` has the device to itself. -/
structure Lhd.Inv (s : Lhd T D) (owner : Option T) : Prop where
  holds : Holds LhdPc.inside s.pc owner
  clear : s.clear = if owner = none then 1 else 0
  owned : s.Owned owner
  right : ∀ x ∈ s.xfers, s.Right x

variable {s s' : Lhd T D} {owner : Option T} {t : T} {p : LhdPc D}

omit [DecidableEq T] in
/-- The disk is quiet still when other things have changed. -/
lemma Lhd.Quiet.frame (h : s.Quiet) (stat : s'.stat = s.stat) (done : s'.done = s.done) (irq : s'.irq = s.irq)
    (nops : s'.nops = s.nops) (ops : s'.ops = s.ops) : s'.Quiet := by
  constructor
  · rw [stat, h.stat]
  · rw [done, h.done]
  · rw [irq, h.irq]
  · rw [nops, ops]
    exact h.ops

omit [DecidableEq T] in
/-- An operation is issued still when other things have changed. -/
lemma Lhd.Issued.frame {r : LhdReq} {i n : Nat} (h : s.Issued t r i n) (nops : s'.nops = s.nops) (ops : s'.ops = s.ops) :
    s'.Issued t r i n := by
  constructor
  · rw [nops, h.last]
  · rw [ops, h.issuer]
  · rw [ops, h.sector]
  · rw [ops, h.write]
  · rw [ops]
    exact h.older

omit [DecidableEq T] in
/-- An operation is finished still when other things have changed. -/
lemma Lhd.Finished.frame {write : Bool} {n code : Nat} {data : D} (h : s.Finished write n code data)
    (ops : s'.ops = s.ops) (buf : s'.buf = s.buf) : s'.Finished write n code data := by
  constructor
  · exact h.isCode
  · rw [ops, h.done]
  · rw [buf]
    exact h.buf

omit [DecidableEq T] in
/-- A transfer that was right stays so. -/
lemma Lhd.Right.frame {x : LhdXfer T D} (h : s.Right x) (nops : s.nops ≤ s'.nops)
    (ops : ∀ n < s.nops, (s.ops n).done ≠ none → s'.ops n = s.ops n) : s'.Right x := by
  obtain ⟨code, data, op, lt, rest⟩ := h
  have done : (s.ops x.op).done ≠ none := by
    rw [op]
    nofun
  exact ⟨code, data, (ops x.op lt done).trans op, lt.trans_le nops, rest⟩

/-- Moving a thread on leaves the phase of the disk. -/
lemma Lhd.Phase.goto (h : s.Phase t p) (u : T) (q : LhdPc D) : (s.goto u q).Phase t p := by
  cases p with
  | out => trivial
  | loop r i => trivial
  | fill r i => exact Quiet.frame h rfl rfl rfl rfl rfl
  | abort => exact Quiet.frame h rfl rfl rfl rfl rfl
  | sect r i => exact Quiet.frame h rfl rfl rfl rfl rfl
  | start r i => exact ⟨h.1.frame rfl rfl rfl rfl rfl, h.2⟩
  | wait r i n =>
    obtain ⟨issued, sect, stage⟩ := h
    refine ⟨issued.frame rfl rfl, sect, ?_⟩
    cases stage with
    | working stat done irq op => exact .working stat done irq op
    | finished fin stat done irq => exact .finished (fin.frame rfl rfl) stat done irq
    | ack fin stat done irq => exact .ack (fin.frame rfl rfl) stat done irq
    | store fin stat done irq => exact .store (fin.frame rfl rfl) stat done irq
    | post fin stat done irq result => exact .post (fin.frame rfl rfl) stat done irq result
    | done fin stat done irq result => exact .done (fin.frame rfl rfl) stat done irq result
  | result r i n =>
    obtain ⟨quiet, issued, code, data, fin, result⟩ := h
    exact ⟨quiet.frame rfl rfl rfl rfl rfl, issued.frame rfl rfl, code, data, fin.frame rfl rfl, result⟩
  | copy r i n =>
    obtain ⟨quiet, issued, write, data, fin⟩ := h
    exact ⟨quiet.frame rfl rfl rfl rfl rfl, issued.frame rfl rfl, write, data, fin.frame rfl rfl⟩
  | finish r i n res ret got =>
    obtain ⟨quiet, issued, ret, code, data, fin, rest⟩ := h
    exact ⟨quiet.frame rfl rfl rfl rfl rfl, issued.frame rfl rfl, ret, code, data, fin.frame rfl rfl, rest⟩

omit [DecidableEq T] in
/-- A thread that is inside has the device to itself. -/
lemma Lhd.Inv.inside (h : s.Inv owner) (here : (s.pc t).inside = true) :
    owner = some t ∧ s.clear = 0 ∧ s.Phase t (s.pc t) := by
  have own : owner = some t := (h.holds t).1 here
  have phase := h.owned
  have clear := h.clear
  subst own
  exact ⟨rfl, clear, phase⟩

omit [DecidableEq T] in
/-- A thread that is at a place inside, and what holds at that place. -/
lemma Lhd.Inv.here (h : s.Inv owner) (pc : s.pc t = p) (inside : p.inside = true) :
    (s.pc t).inside = true ∧ s.Phase t p := by
  subst pc
  exact ⟨inside, (h.inside inside).2.2⟩

/-- The thread that has the device to itself goes on. -/
lemma Lhd.Inv.on (h : s.Inv owner) (here : (s.pc t).inside = true) (pc : s'.pc = Function.update s.pc t p)
    (still : p.inside = true) (clear : s'.clear = s.clear) (phase : s'.Phase t p)
    (right : ∀ x ∈ s'.xfers, s'.Right x) : s'.Inv owner := by
  obtain ⟨own, -, -⟩ := h.inside here
  constructor
  · rw [pc]
    exact h.holds.keep (still.trans here.symm)
  · rw [clear, h.clear]
  · rw [own]
    change s'.Phase t (s'.pc t)
    rw [pc, Function.update_self]
    exact phase
  · exact right

/-- The thread that has the device to itself gives it up. -/
lemma Lhd.Inv.off (h : s.Inv owner) (here : (s.pc t).inside = true) (pc : s'.pc = Function.update s.pc t p)
    (outside : p.inside = false) (clear : s'.clear = s.clear + 1) (quiet : s'.Quiet)
    (right : ∀ x ∈ s'.xfers, s'.Right x) : s'.Inv none := by
  obtain ⟨-, zero, -⟩ := h.inside here
  constructor
  · rw [pc]
    exact h.holds.release here outside
  · rw [clear, zero]
    rfl
  · exact quiet
  · exact right

/-- A thread moves outside. -/
lemma Lhd.Inv.outside (h : s.Inv owner) (there : (s.pc t).inside = false) (outside : p.inside = false) :
    (s.goto t p).Inv owner := by
  constructor
  · exact h.holds.keep (outside.trans there.symm)
  · exact h.clear
  · have phase := h.owned
    have holds := h.holds
    cases owner with
    | none => exact Quiet.frame phase rfl rfl rfl rfl rfl
    | some u =>
      have inside : (s.pc u).inside = true := (holds u).2 rfl
      have ne : u ≠ t := by
        intro e
        rw [e, there] at inside
        exact nomatch inside
      change (s.goto t p).Phase u (Function.update s.pc t p u)
      rw [Function.update_of_ne ne]
      exact Phase.goto phase t p
  · intro x mem
    exact (h.right x mem).frame le_rfl fun _ _ _ => rfl

omit [DecidableEq T] in
/-- When the device or the interrupt handler is at work, a thread waits for its operation. -/
lemma Lhd.Inv.awaited (h : s.Inv owner) (busy : ¬ s.Quiet) : ∃ t r i n, owner = some t ∧ s.pc t = .wait r i n ∧
    s.Issued t r i n ∧ s.sect = wadd 32 r.sector i ∧ s.Stage r.write n := by
  have phase := h.owned
  have holds := h.holds
  cases owner with
  | none => exact absurd phase busy
  | some t =>
    have inside : (s.pc t).inside = true := (holds t).2 rfl
    change s.Phase t (s.pc t) at phase
    cases pc : s.pc t with
    | out => rw [pc] at inside; exact nomatch inside
    | loop r i => rw [pc] at inside; exact nomatch inside
    | fill r i => rw [pc] at phase; exact absurd phase busy
    | abort => rw [pc] at phase; exact absurd phase busy
    | sect r i => rw [pc] at phase; exact absurd phase busy
    | start r i => rw [pc] at phase; exact absurd phase.1 busy
    | wait r i n =>
      rw [pc] at phase
      exact ⟨t, r, i, n, rfl, pc, phase⟩
    | result r i n => rw [pc] at phase; exact absurd phase.1 busy
    | copy r i n => rw [pc] at phase; exact absurd phase.1 busy
    | finish r i n res ret got => rw [pc] at phase; exact absurd phase.1 busy

omit [DecidableEq T] in
/-- The device or the interrupt handler makes progress with the operation that a thread waits for. -/
lemma Lhd.Inv.progress {r : LhdReq} {i n : Nat} (h : s.Inv owner) (own : owner = some t) (at_ : s.pc t = .wait r i n)
    (pc : s'.pc = s.pc) (clear : s'.clear = s.clear) (issued : s'.Issued t r i n)
    (sect : s'.sect = wadd 32 r.sector i) (stage : s'.Stage r.write n) (right : ∀ x ∈ s'.xfers, s'.Right x) :
    s'.Inv owner := by
  constructor
  · rw [pc]
    exact h.holds
  · rw [clear, h.clear]
  · subst own
    change s'.Phase t (s'.pc t)
    rw [pc, at_]
    exact ⟨issued, sect, stage⟩
  · exact right

omit [DecidableEq T] in
/-- Nobody uses the disk at the start. -/
lemma Lhd.Inv.config (buf : D) (platter : Nat → D) (ops : Nat → LhdOp T D) : (configLhd buf platter ops).Inv none where
  holds := fun _ => iff_of_false nofun nofun
  clear := rfl
  owned := ⟨rfl, rfl, rfl, fun _ lt => absurd lt (Nat.not_lt_zero _)⟩
  right := fun _ mem => absurd mem List.not_mem_nil

omit [DecidableEq T] in
/-- A disk with a status is not quiet. -/
lemma Lhd.Quiet.not_of_stat (h : s.stat ≠ 0) : ¬ s.Quiet := fun quiet => h quiet.stat

omit [DecidableEq T] in
/-- Nor is one whose handler is running. -/
lemma Lhd.Quiet.not_of_irq (h : s.irq ≠ .idle) : ¬ s.Quiet := fun quiet => h quiet.irq

omit [DecidableEq T] in
/-- The operation that is issued is the last one. -/
lemma Lhd.Issued.last_eq {r : LhdReq} {i n : Nat} (h : s.Issued t r i n) : s.nops - 1 = n := by
  rw [h.last, Nat.add_sub_cancel]

/-- The status of a finished operation is not that of one that is under way. -/
lemma IsCode.not_working {code : Nat} (h : IsCode code) (write : Bool) :
    (code ||| (lhdStatval write &&& lhdIswrite)) &&& lhdStatemask ≠ lhdWorking := by
  obtain rfl | rfl | rfl := h <;> cases write <;> decide

/-- The bit for writes does not change the error code. -/
lemma IsCode.code_eq {code : Nat} (h : IsCode code) (write : Bool) :
    lhdCodeToErrno (code ||| (lhdStatval write &&& lhdIswrite)) = lhdCodeToErrno code := by
  obtain rfl | rfl | rfl := h <;> cases write <;> decide

omit [DecidableEq T] in
/-- An operation that is under way for the device is one for the thread that waits for it. -/
lemma Lhd.Stage.under_way {write : Bool} {n : Nat} (h : s.Stage write n) (stat : s.stat &&& lhdStatemask = lhdWorking) :
    s.stat = lhdStatval write ∧ s.done = 0 ∧ s.irq = .idle ∧ (s.ops n).done = none := by
  cases h with
  | working stat done irq op => exact ⟨stat, done, irq, op⟩
  | finished fin stat' => exact absurd (stat' ▸ stat) (fin.isCode.not_working write)
  | ack fin stat' => exact absurd (stat' ▸ stat) (fin.isCode.not_working write)
  | store fin stat' => rw [stat'] at stat; exact nomatch stat
  | post fin stat' => rw [stat'] at stat; exact nomatch stat
  | done fin stat' => rw [stat'] at stat; exact nomatch stat

omit [DecidableEq T] in
/-- The operation is finished when the handler begins. -/
lemma Lhd.Stage.ready {write : Bool} {n : Nat} (h : s.Stage write n) (irq : s.irq = .idle)
    (stat : lhdFinished s.stat = true) :
    ∃ code data, s.Finished write n code data ∧ s.stat = code ||| (lhdStatval write &&& lhdIswrite) ∧ s.done = 0 := by
  cases h with
  | working stat' =>
    rw [stat'] at stat
    cases write <;> exact nomatch stat
  | finished fin stat' done => exact ⟨_, _, fin, stat', done⟩
  | ack _ _ _ irq' => rw [irq] at irq'; exact nomatch irq'
  | store _ _ _ irq' => rw [irq] at irq'; exact nomatch irq'
  | post _ _ _ irq' => rw [irq] at irq'; exact nomatch irq'
  | done _ stat' => rw [stat'] at stat; exact nomatch stat

omit [DecidableEq T] in
/-- And when it acknowledges. -/
lemma Lhd.Stage.acked {write : Bool} {n val : Nat} (h : s.Stage write n) (irq : s.irq = .ack val) :
    ∃ code data, s.Finished write n code data ∧ val = code ||| (lhdStatval write &&& lhdIswrite) ∧ s.done = 0 := by
  cases h with
  | working _ _ irq' => rw [irq] at irq'; exact nomatch irq'
  | finished _ _ _ irq' => rw [irq] at irq'; exact nomatch irq'
  | ack fin _ done irq' =>
    rw [irq] at irq'
    exact ⟨_, _, fin, IrqPc.ack.inj irq', done⟩
  | store _ _ _ irq' => rw [irq] at irq'; exact nomatch irq'
  | post _ _ _ irq' => rw [irq] at irq'; exact nomatch irq'
  | done _ _ _ irq' => rw [irq] at irq'; exact nomatch irq'

omit [DecidableEq T] in
/-- And when it stores the result. -/
lemma Lhd.Stage.stored {write : Bool} {n err : Nat} (h : s.Stage write n) (irq : s.irq = .store err) :
    ∃ code data, s.Finished write n code data ∧ s.stat = 0 ∧ err = lhdCodeToErrno code ∧ s.done = 0 := by
  cases h with
  | working _ _ irq' => rw [irq] at irq'; exact nomatch irq'
  | finished _ _ _ irq' => rw [irq] at irq'; exact nomatch irq'
  | ack _ _ _ irq' => rw [irq] at irq'; exact nomatch irq'
  | store fin stat done irq' =>
    rw [irq] at irq'
    exact ⟨_, _, fin, stat, IrqPc.store.inj irq', done⟩
  | post _ _ _ irq' => rw [irq] at irq'; exact nomatch irq'
  | done _ _ _ irq' => rw [irq] at irq'; exact nomatch irq'

omit [DecidableEq T] in
/-- And before it wakes the thread. -/
lemma Lhd.Stage.posting {write : Bool} {n : Nat} (h : s.Stage write n) (irq : s.irq = .post) :
    ∃ code data, s.Finished write n code data ∧ s.stat = 0 ∧ s.result = lhdCodeToErrno code ∧ s.done = 0 := by
  cases h with
  | working _ _ irq' => rw [irq] at irq'; exact nomatch irq'
  | finished _ _ _ irq' => rw [irq] at irq'; exact nomatch irq'
  | ack _ _ _ irq' => rw [irq] at irq'; exact nomatch irq'
  | store _ _ _ irq' => rw [irq] at irq'; exact nomatch irq'
  | post fin stat done _ result => exact ⟨_, _, fin, stat, result, done⟩
  | done _ _ _ irq' => rw [irq] at irq'; exact nomatch irq'

omit [DecidableEq T] in
/-- And after that. -/
lemma Lhd.Stage.posted {write : Bool} {n : Nat} (h : s.Stage write n) (done : 0 < s.done) :
    ∃ code data, s.Finished write n code data ∧ s.stat = 0 ∧ s.done = 1 ∧ s.irq = .idle ∧ s.result = lhdCodeToErrno code := by
  cases h with
  | working _ done' => rw [done'] at done; exact absurd done (lt_irrefl 0)
  | finished _ _ done' => rw [done'] at done; exact absurd done (lt_irrefl 0)
  | ack _ _ done' => rw [done'] at done; exact absurd done (lt_irrefl 0)
  | store _ _ done' => rw [done'] at done; exact absurd done (lt_irrefl 0)
  | post _ _ done' => rw [done'] at done; exact absurd done (lt_irrefl 0)
  | done fin stat done irq result => exact ⟨_, _, fin, stat, done, irq, result⟩

omit [DecidableEq T] in
/-- The last operation is finished. -/
lemma Lhd.Issued.finish {r : LhdReq} {i n : Nat} (h : s.Issued t r i n) (code : Nat) :
    (s.finishOp n code).Issued t r i n := by
  constructor
  · exact h.last
  · change (Function.update s.ops n _ n).issuer = t
    rw [Function.update_self]
    exact h.issuer
  · change (Function.update s.ops n _ n).sector = _
    rw [Function.update_self]
    exact h.sector
  · change (Function.update s.ops n _ n).write = _
    rw [Function.update_self]
    exact h.write
  · intro m lt
    change (Function.update s.ops n _ m).done ≠ none
    rw [Function.update_of_ne lt.ne]
    exact h.older m lt

omit [DecidableEq T] in
/-- An operation that is not finished is that of no transfer. -/
lemma Lhd.Right.finishOp {x : LhdXfer T D} {n : Nat} (h : s.Right x) (open_ : (s.ops n).done = none) (code : Nat) :
    (s.finishOp n code).Right x := by
  refine h.frame le_rfl fun m _ done => ?_
  have ne : m ≠ n := by
    intro e
    rw [e] at done
    exact done open_
  exact Function.update_of_ne ne ..

omit [DecidableEq T] in
/-- When all operations but the last are finished, and it is finished too, the device is quiet. -/
lemma Lhd.Issued.all_done {r : LhdReq} {i n : Nat} (h : s.Issued t r i n) (done : (s.ops n).done ≠ none) :
    ∀ m < s.nops, (s.ops m).done ≠ none := by
  intro m lt
  rw [h.last] at lt
  obtain before | rfl := Nat.lt_succ_iff_lt_or_eq.1 lt
  · exact h.older m before
  · exact done

omit [DecidableEq T] in
/-- What is finished is done. -/
lemma Lhd.Finished.done_ne {write : Bool} {n code : Nat} {data : D} (h : s.Finished write n code data) :
    (s.ops n).done ≠ none := by
  rw [h.done]
  nofun

/-- A started operation is the only one under way. -/
lemma Lhd.Quiet.start (h : s.Quiet) (r : LhdReq) (i : Nat) (sect : s.sect = wadd 32 r.sector i) :
    ({ s.goto t (.wait r i s.nops) with stat := lhdStatval r.write }.startOp
      ⟨t, wadd 32 r.sector i, r.write, none⟩).Phase t (.wait r i s.nops) := by
  let op : LhdOp T D := ⟨t, wadd 32 r.sector i, r.write, none⟩
  have new : Function.update s.ops s.nops op s.nops = op := Function.update_self ..
  refine ⟨⟨rfl, congrArg LhdOp.issuer new, congrArg LhdOp.sector new, congrArg LhdOp.write new, ?_⟩, sect,
    .working rfl h.done h.irq (congrArg LhdOp.done new)⟩
  intro m lt
  have old : Function.update s.ops s.nops op m = s.ops m := Function.update_of_ne lt.ne ..
  exact (congrArg LhdOp.done old).trans_ne (h.ops m lt)

omit [DecidableEq T] in
/-- The operation is done with the code and the sector. -/
lemma Lhd.finishOp_done (n code : Nat) :
    ((s.finishOp n code).ops n).done = some (code, s.platter (s.ops n).sector) := by
  change (Function.update s.ops n _ n).done = _
  rw [Function.update_self]

omit [DecidableEq T] in
/-- A write goes to the platter. -/
lemma Lhd.transfer_write (h : s.stat = lhdStatval true) :
    s.transfer = { s with platter := Function.update s.platter s.sect s.buf } := by
  rw [transfer, h]
  rfl

omit [DecidableEq T] in
/-- A read goes to the buffer. -/
lemma Lhd.transfer_read (h : s.stat = lhdStatval false) : s.transfer = { s with buf := s.platter s.sect } := by
  rw [transfer, h]
  rfl

/-- The invariant holds after each step. -/
lemma Lhd.Inv.step {blocks : Nat} (h : s.Inv owner) (step : LhdStep blocks s s') : ∃ owner', s'.Inv owner' := by
  cases step with
  | @call t offset resid write r pc => exact ⟨owner, h.outside (congrArg LhdPc.inside pc) rfl⟩
  | @leave t r i pc => exact ⟨owner, h.outside (congrArg LhdPc.inside pc) rfl⟩
  | @pClear t r i pc lt pos =>
    have none_ : owner = none := by
      by_contra own
      have zero := h.clear
      rw [if_neg own] at zero
      rw [zero] at pos
      exact absurd pos (lt_irrefl 0)
    subst none_
    have quiet : s.Quiet := h.owned
    refine ⟨some t, h.holds.acquire rfl, ?_, ?_, fun x mem => (h.right x mem).frame le_rfl fun _ _ _ => rfl⟩
    · change s.clear - 1 = 0
      rw [h.clear]
      rfl
    · change Phase _ t (Function.update s.pc t _ t)
      rw [Function.update_self]
      exact quiet.frame rfl rfl rfl rfl rfl
  | @fill t r i d pc write =>
    obtain ⟨here, quiet⟩ := h.here pc rfl
    exact ⟨owner, h.on here rfl rfl rfl (Quiet.frame quiet rfl rfl rfl rfl rfl)
      fun x mem => (h.right x mem).frame le_rfl fun _ _ _ => rfl⟩
  | @fillFails t r i d pc write =>
    obtain ⟨here, quiet⟩ := h.here pc rfl
    exact ⟨owner, h.on here rfl rfl rfl (Quiet.frame quiet rfl rfl rfl rfl rfl)
      fun x mem => (h.right x mem).frame le_rfl fun _ _ _ => rfl⟩
  | @abort t pc =>
    obtain ⟨here, quiet⟩ := h.here pc rfl
    exact ⟨none, h.off here rfl rfl rfl (Quiet.frame quiet rfl rfl rfl rfl rfl)
      fun x mem => (h.right x mem).frame le_rfl fun _ _ _ => rfl⟩
  | @noFill t r i pc write =>
    obtain ⟨here, quiet⟩ := h.here pc rfl
    exact ⟨owner, h.on here rfl rfl rfl (Quiet.frame quiet rfl rfl rfl rfl rfl)
      fun x mem => (h.right x mem).frame le_rfl fun _ _ _ => rfl⟩
  | @sect t r i pc =>
    obtain ⟨here, quiet⟩ := h.here pc rfl
    exact ⟨owner, h.on here rfl rfl rfl ⟨Quiet.frame quiet rfl rfl rfl rfl rfl, rfl⟩
      fun x mem => (h.right x mem).frame le_rfl fun _ _ _ => rfl⟩
  | @start t r i pc =>
    obtain ⟨here, quiet, sect⟩ := h.here pc rfl
    refine ⟨owner, h.on here rfl rfl rfl (Quiet.start quiet r i sect) fun x mem => ?_⟩
    exact (h.right x mem).frame (Nat.le_succ _) fun m lt _ => Function.update_of_ne lt.ne ..
  | @pDone t r i n pc pos =>
    obtain ⟨here, issued, sect, stage⟩ := h.here pc rfl
    obtain ⟨code, data, fin, stat, one, irq, result⟩ := stage.posted pos
    have quiet : Quiet { s.goto t (.result r i n) with done := s.done - 1 } := by
      refine ⟨stat, ?_, irq, issued.all_done fin.done_ne⟩
      change s.done - 1 = 0
      rw [one]
    exact ⟨owner, h.on here rfl rfl rfl ⟨quiet, issued.frame rfl rfl, code, data, fin.frame rfl rfl, result⟩
      fun x mem => (h.right x mem).frame le_rfl fun _ _ _ => rfl⟩
  | @success t r i n pc zero read =>
    obtain ⟨here, quiet, issued, code, data, fin, result⟩ := h.here pc rfl
    have ok : code = lhdOk := by
      rw [zero] at result
      obtain rfl | rfl | rfl := fin.isCode
      · rfl
      · exact nomatch result
      · exact nomatch result
    subst ok
    exact ⟨owner, h.on here rfl rfl rfl
      ⟨quiet.frame rfl rfl rfl rfl rfl, issued.frame rfl rfl, read, data, fin.frame rfl rfl⟩
      fun x mem => (h.right x mem).frame le_rfl fun _ _ _ => rfl⟩
  | @result t r i n pc other =>
    obtain ⟨here, quiet, issued, code, data, fin, result⟩ := h.here pc rfl
    exact ⟨owner, h.on here rfl rfl rfl
      ⟨quiet.frame rfl rfl rfl rfl rfl, issued.frame rfl rfl, fun _ => rfl, code, data, fin.frame rfl rfl, result,
        fun zero read => absurd ⟨zero, read⟩ other⟩
      fun x mem => (h.right x mem).frame le_rfl fun _ _ _ => rfl⟩
  | @copy t r i n pc =>
    obtain ⟨here, quiet, issued, read, data, fin⟩ := h.here pc rfl
    exact ⟨owner, h.on here rfl rfl rfl
      ⟨quiet.frame rfl rfl rfl rfl rfl, issued.frame rfl rfl, fun _ => rfl, lhdOk, data, fin.frame rfl rfl, rfl,
        fun _ _ => congrArg some (fin.buf rfl read)⟩
      fun x mem => (h.right x mem).frame le_rfl fun _ _ _ => rfl⟩
  | @copyFails t r i n e pc ne =>
    obtain ⟨here, quiet, issued, read, data, fin⟩ := h.here pc rfl
    refine ⟨owner, h.on here rfl rfl rfl
      ⟨quiet.frame rfl rfl rfl rfl rfl, issued.frame rfl rfl, ?_, lhdOk, data, fin.frame rfl rfl, rfl,
        fun zero => absurd zero ne⟩
      fun x mem => (h.right x mem).frame le_rfl fun _ _ _ => rfl⟩
    rintro (zero | write)
    · exact absurd rfl zero
    · rw [read] at write
      exact nomatch write
  | @finish t r i n res ret got pc =>
    obtain ⟨here, quiet, issued, same, code, data, fin, result, moved⟩ := h.here pc rfl
    have op : s.ops n = ⟨t, wadd 32 r.sector i, r.write, some (code, data)⟩ := by
      rw [← issued.issuer, ← issued.sector, ← issued.write, ← fin.done]
    have outside : (if ret = 0 then LhdPc.loop r (i + 1) else LhdPc.out : LhdPc D).inside = false := by
      split <;> rfl
    refine ⟨none, h.off here rfl outside rfl (quiet.frame rfl rfl rfl rfl rfl) fun x mem => ?_⟩
    cases mem with
    | head => exact ⟨code, data, op, issued.last ▸ Nat.lt_succ_self n, fin.isCode, result, same, moved⟩
    | tail _ mem => exact (h.right x mem).frame le_rfl fun _ _ _ => rfl
  | deviceOk stat =>
    have busy : ¬ s.Quiet := Quiet.not_of_stat fun zero => by rw [zero] at stat; exact nomatch stat
    obtain ⟨t, r, i, n, own, pc, issued, sect, stage⟩ := h.awaited busy
    obtain ⟨stat, done, irq, open_⟩ := stage.under_way stat
    rw [issued.last_eq]
    have right : ∀ x ∈ s.xfers, (s.finishOp n lhdOk).Right x := fun x mem => (h.right x mem).finishOp open_ lhdOk
    cases write : r.write with
    | true =>
      rw [write] at stat
      rw [transfer_write (show (s.finishOp n lhdOk).stat = _ from stat)]
      refine ⟨owner, h.progress own pc rfl rfl ((issued.finish lhdOk).frame rfl rfl) sect ?_
        fun x mem => (right x mem).frame le_rfl fun _ _ _ => rfl⟩
      refine .finished ⟨.inl rfl, finishOp_done n lhdOk, fun _ read => ?_⟩ ?_ done irq
      · rw [write] at read
        exact nomatch read
      · rw [write]
        exact congrArg (fun v => lhdOk ||| (v &&& lhdIswrite)) stat
    | false =>
      rw [write] at stat
      rw [transfer_read (show (s.finishOp n lhdOk).stat = _ from stat)]
      refine ⟨owner, h.progress own pc rfl rfl ((issued.finish lhdOk).frame rfl rfl) sect ?_
        fun x mem => (right x mem).frame le_rfl fun _ _ _ => rfl⟩
      refine .finished ⟨.inl rfl, finishOp_done n lhdOk, fun _ _ => ?_⟩ ?_ done irq
      · exact congrArg s.platter (sect.trans issued.sector.symm)
      · rw [write]
        exact congrArg (fun v => lhdOk ||| (v &&& lhdIswrite)) stat
  | @deviceFails code stat fails =>
    have busy : ¬ s.Quiet := Quiet.not_of_stat fun zero => by rw [zero] at stat; exact nomatch stat
    obtain ⟨t, r, i, n, own, pc, issued, sect, stage⟩ := h.awaited busy
    obtain ⟨stat, done, irq, open_⟩ := stage.under_way stat
    rw [issued.last_eq]
    refine ⟨owner, h.progress own pc rfl rfl ((issued.finish code).frame rfl rfl) sect ?_ fun x mem =>
      ((h.right x mem).finishOp open_ code).frame le_rfl fun _ _ _ => rfl⟩
    refine .finished ⟨.inr fails, finishOp_done n code, fun ok => ?_⟩ ?_ done irq
    · obtain rfl | rfl := fails
      · exact nomatch ok
      · exact nomatch ok
    · exact congrArg (fun v => code ||| (v &&& lhdIswrite)) stat
  | irq idle finished =>
    have busy : ¬ s.Quiet := Quiet.not_of_stat fun zero => by rw [zero] at finished; exact nomatch finished
    obtain ⟨t, r, i, n, own, pc, issued, sect, stage⟩ := h.awaited busy
    obtain ⟨code, data, fin, stat, done⟩ := stage.ready idle finished
    exact ⟨owner, h.progress own pc rfl rfl (issued.frame rfl rfl) sect
      (.ack (fin.frame rfl rfl) stat done (congrArg IrqPc.ack stat))
      fun x mem => (h.right x mem).frame le_rfl fun _ _ _ => rfl⟩
  | @ack val irq =>
    obtain ⟨t, r, i, n, own, pc, issued, sect, stage⟩ := h.awaited (Quiet.not_of_irq fun e => nomatch irq.symm.trans e)
    obtain ⟨code, data, fin, rfl, done⟩ := stage.acked irq
    exact ⟨owner, h.progress own pc rfl rfl (issued.frame rfl rfl) sect
      (.store (fin.frame rfl rfl) rfl done (congrArg IrqPc.store (fin.isCode.code_eq r.write)))
      fun x mem => (h.right x mem).frame le_rfl fun _ _ _ => rfl⟩
  | @store err irq =>
    obtain ⟨t, r, i, n, own, pc, issued, sect, stage⟩ := h.awaited (Quiet.not_of_irq fun e => nomatch irq.symm.trans e)
    obtain ⟨code, data, fin, stat, rfl, done⟩ := stage.stored irq
    exact ⟨owner, h.progress own pc rfl rfl (issued.frame rfl rfl) sect
      (.post (fin.frame rfl rfl) stat done rfl rfl)
      fun x mem => (h.right x mem).frame le_rfl fun _ _ _ => rfl⟩
  | post irq =>
    obtain ⟨t, r, i, n, own, pc, issued, sect, stage⟩ := h.awaited (Quiet.not_of_irq fun e => nomatch irq.symm.trans e)
    obtain ⟨code, data, fin, stat, result, done⟩ := stage.posting irq
    exact ⟨owner, h.progress own pc rfl rfl (issued.frame rfl rfl) sect
      (.done (fin.frame rfl rfl) stat (congrArg (· + 1) done) rfl result)
      fun x mem => (h.right x mem).frame le_rfl fun _ _ _ => rfl⟩

/-- The invariant holds in every state that is reached. -/
lemma LhdReach.inv {blocks : Nat} (reach : LhdReach blocks s) : ∃ owner, s.Inv owner := by
  induction reach with
  | config => exact ⟨none, .config ..⟩
  | step _ step ih =>
    obtain ⟨owner, inv⟩ := ih
    exact inv.step step

omit [DecidableEq T] in
/-- An operation that is not finished is the last. -/
lemma Lhd.Inv.outstanding (h : s.Inv owner) {n : Nat} (lt : n < s.nops) (open_ : (s.ops n).done = none) :
    s.nops = n + 1 := by
  obtain ⟨t, r, i, m, -, -, issued, -⟩ := h.awaited fun quiet => quiet.ops n lt open_
  have le : n ≤ m := Nat.lt_succ_iff.1 (lt.trans_eq issued.last)
  obtain before | rfl := le.lt_or_eq
  · exact absurd open_ (issued.older n before)
  · exact issued.last

omit [DecidableEq T] in
/-- A completed operation awaits its issuer. -/
lemma Lhd.Inv.awaits (h : s.Inv owner) (done : s.done ≠ 0) :
    s.done = 1 ∧ ∃ t r i n, s.pc t = .wait r i n ∧ (s.ops n).issuer = t ∧ (s.ops n).done ≠ none := by
  obtain ⟨t, r, i, n, -, pc, issued, -, stage⟩ := h.awaited fun quiet => done quiet.done
  obtain ⟨code, data, fin, -, one, -⟩ := stage.posted (Nat.pos_of_ne_zero done)
  exact ⟨one, t, r, i, n, pc, issued.issuer, fin.done_ne⟩

/-- In every run, at most one operation is outstanding, at most one thread is inside, `lh_done` is up only for a completed
operation whose issuer waits for it, and each transfer returns the result of its own operation and the data. -/
theorem lhd_protocol [Fintype T] {blocks : Nat} (reach : LhdReach blocks s) :
    (∀ m < s.nops, ∀ n < s.nops, (s.ops m).done = none → (s.ops n).done = none → m = n) ∧
    s.clear + tally LhdPc.inside s.pc = 1 ∧
    ((∀ t r i n, s.pc t = .wait r i n → (s.ops n).done = none) → s.done = 0) ∧
    ∀ x ∈ s.xfers, s.Right x := by
  obtain ⟨owner, inv⟩ := reach.inv
  refine ⟨?_, ?_, ?_, inv.right⟩
  · intro m lm n ln om on
    exact Nat.succ.inj ((inv.outstanding lm om).symm.trans (inv.outstanding ln on))
  · rw [inv.clear, inv.holds.tally_eq]
    split <;> rfl
  · intro none_awaits
    by_contra done
    obtain ⟨-, t, r, i, n, pc, -, finished⟩ := inv.awaits done
    exact finished (none_awaits t r i n pc)

/-- One of two threads reads a sector, and the other one is inside with the next. -/
theorem lhd_protocol_read : ∃ s : Lhd (Fin 2) Nat, s.clear + tally LhdPc.inside s.pc = 1 ∧
    s.pc 1 = .fill ⟨false, 5, 1⟩ 0 ∧ s.xfers = [⟨0, ⟨false, 3, 1⟩, 0, 0, 0, 0, some 33⟩] ∧ ∀ x ∈ s.xfers, s.Right x := by
  have first : lhdRequest 8 (3 * 512) 512 false = some ⟨false, 3, 1⟩ := by decide
  have next : lhdRequest 8 (5 * 512) 512 false = some ⟨false, 5, 1⟩ := by decide
  have r0 : LhdReach 8 (configLhd 0 (fun n => n + 30) (fun _ => ⟨0, 0, false, none⟩) : Lhd (Fin 2) Nat) := .config
  have r1 := r0.step (.call (t := 0) rfl first)
  have r2 := r1.step (.pClear (t := 0) rfl (by decide) (by decide))
  have r3 := r2.step (.noFill (t := 0) rfl rfl)
  have r4 := r3.step (.sect (t := 0) rfl)
  have r5 := r4.step (.start (t := 0) rfl)
  have r6 := r5.step (.deviceOk rfl)
  have r7 := r6.step (.irq rfl rfl)
  have r8 := r7.step (.ack rfl)
  have r9 := r8.step (.store rfl)
  have r10 := r9.step (.post rfl)
  have r11 := r10.step (.pDone (t := 0) rfl (by decide))
  have r12 := r11.step (.success (t := 0) rfl rfl rfl)
  have r13 := r12.step (.copy (t := 0) rfl)
  have r14 := r13.step (.finish (t := 0) rfl)
  have r15 := r14.step (.call (t := 1) rfl next)
  have r16 := r15.step (.pClear (t := 1) rfl (by decide) (by decide))
  obtain ⟨-, clear, -, right⟩ := lhd_protocol r16
  exact ⟨_, clear, rfl, rfl, right⟩

end PDS.Dev
