import PDS.Kern.LoadElf
import PDS.Sfs.Uio

/-!
# Moving bytes between a buffer and a request

Port of `uiomove` in `kern/lib/uio.c`, for any request: any number of buffers, both directions, in the memory of the
kernel or in that of a user. Memory is bytes, and `memmove` copies as if through a buffer of its own. What `copyin` and
`copyout` do to the memory is a parameter (`UserCopy`); the panic for a direction that is none is left out.

The loop stops when `uio_resid` is `0`, but a step is limited by the length of the buffer and by `n` only. When a step
takes more than `uio_resid`, the difference wraps around (`uiomove_moves_iff`).
-/

namespace PDS.Uiomove
open Kern Word
open Sfs (UioRw)

abbrev Mem := Nat → UInt8

/-- C `memmove`. -/
def Mem.memmove (mem : Mem) (dest src size : Nat) : Mem := fun x =>
  if dest ≤ x ∧ x < dest + size then mem (src + (x - dest)) else mem x

/-- The functions that access user memory; the number is the error code. -/
structure UserCopy where
  copyin : Mem → Nat → Nat → Nat → Mem × Nat
  copyout : Mem → Nat → Nat → Nat → Mem × Nat

/-- C `struct uio`; the buffers are those from `uio_iov` on, as many as `uio_iovcnt` says. -/
structure Uio where
  iov : List Iovec
  offset : Int
  resid : Nat
  segflg : UioSeg
  rw : UioRw
  /-- `NULL` for a request in kernel memory (C `uio_space`) -/
  space : Option Nat

/-- The `switch` of `uiomove`: copies between the buffer at `ptr` and the start of an `iovec`. -/
def moveBytes (user : UserCopy) (u : Uio) (mem : Mem) (ptr base size : Nat) : Mem × Nat :=
  match u.segflg, u.rw with
  | .sysspace, .read => (mem.memmove base ptr size, 0)
  | .sysspace, .write => (mem.memmove ptr base size, 0)
  | _, .read => user.copyout mem ptr base size
  | _, .write => user.copyin mem base ptr size

/-- An iteration has moved `size` bytes to or from the first buffer. -/
def Uio.advance (u : Uio) (iov : Iovec) (rest : List Iovec) (size : Nat) : Uio :=
  { u with
    iov := ⟨iov.base + size, iov.len - size⟩ :: rest
    resid := wsub 32 u.resid size
    offset := u.offset + size }

/-- The loop of `uiomove`. -/
def uiomoveLoop (user : UserCopy) : Nat → Mem → Nat → Nat → Uio → Except Halt (Mem × Uio × Nat)
  | 0, _, _, _, _ => .error .spin
  | fuel + 1, mem, ptr, n, u =>
    if n > 0 ∧ u.resid > 0 then
      match u.iov with
      | [] => .error fatalFault
      | iov :: rest =>
        let size := if iov.len > n then n else iov.len
        if size = 0 then
          -- "move to the next iovec and try again"
          if rest = [] then .error (.panic "uiomove: ran out of buffers\n")
          else uiomoveLoop user fuel mem ptr n { u with iov := rest }
        else
          let (mem, result) := moveBytes user u mem ptr iov.base size
          if result ≠ 0 then .ok (mem, u, result)
          else uiomoveLoop user fuel mem (ptr + size) (n - size) (u.advance iov rest size)
    else .ok (mem, u, 0)

/-- Moves up to `n` bytes between the buffer at `ptr` and a request, with the address space of the current thread; the
number is the error code (C `uiomove`). -/
def uiomove (user : UserCopy) (cur : Option Nat) (mem : Mem) (ptr n : Nat) (u : Uio) :
    Except Halt (Mem × Uio × Nat) := do
  if u.segflg = .sysspace then kassert (u.space = none) "uio->uio_space == NULL"
  else kassert (u.space = cur) "uio->uio_space == curthread->t_addrspace"
  uiomoveLoop user (n + u.iov.length + 1) mem ptr n u

/-- The addresses that buffers stand for, in their order. -/
def addrs (iov : List Iovec) : List Nat := iov.flatMap fun v => List.range' v.base v.len

/-- Where the bytes of a buffer go: to the request, or to the buffer `ptr` on the other side. -/
def destOf (rw : UioRw) (ptr base : Nat) : Nat :=
  match rw with
  | .read => base
  | .write => ptr

/-- Where they come from. -/
def srcOf (rw : UioRw) (ptr base : Nat) : Nat :=
  match rw with
  | .read => ptr
  | .write => base

/-- Copies bytes between a buffer and one of a request. -/
def copyBytes (rw : UioRw) (mem : Mem) (ptr base size : Nat) : Mem :=
  mem.memmove (destOf rw ptr base) (srcOf rw ptr base) size

/-- Copies `m` bytes between a buffer and the buffers of a request, one after the other. -/
def transfer (rw : UioRw) : Mem → Nat → Nat → List Iovec → Mem
  | mem, _, _, [] => mem
  | mem, ptr, m, v :: iov =>
    let size := min v.len m
    transfer rw (copyBytes rw mem ptr v.base size) (ptr + size) (m - size) iov

/-- The addresses that `m` bytes come from. -/
def sources (rw : UioRw) (ptr m : Nat) (iov : List Iovec) : List Nat :=
  match rw with
  | .read => List.range' ptr m
  | .write => (addrs iov).take m

/-- The addresses that `m` bytes go to. -/
def targets (rw : UioRw) (ptr m : Nat) (iov : List Iovec) : List Nat :=
  match rw with
  | .read => (addrs iov).take m
  | .write => List.range' ptr m

/-- A request says that `m` bytes have been moved, and its buffers are what is left of them. -/
structure Left (m : Nat) (u u' : Uio) : Prop where
  resid : u'.resid + m = u.resid
  offset : u'.offset = u.offset + m
  iov : addrs u'.iov = (addrs u.iov).drop m
  segflg : u'.segflg = u.segflg
  rw : u'.rw = u.rw
  space : u'.space = u.space

/-- `m` bytes have been moved, and nothing else has been written: one buffer after the other as far as the two sides
overlap, and otherwise each byte to its place. -/
structure Moved (mem : Mem) (ptr m : Nat) (u : Uio) (mem' : Mem) (u' : Uio) : Prop where
  counted : (targets u.rw ptr m u.iov).length = m ∧ (sources u.rw ptr m u.iov).length = m
  memory : mem' = transfer u.rw mem ptr m u.iov
  others : ∀ x, x ∉ targets u.rw ptr m u.iov → mem' x = mem x
  bytes : (targets u.rw ptr m u.iov).Nodup → (targets u.rw ptr m u.iov).Disjoint (sources u.rw ptr m u.iov) →
    (targets u.rw ptr m u.iov).map mem' = (sources u.rw ptr m u.iov).map mem
  left : Left m u u'

variable {user : UserCopy} {cur : Option Nat} {mem mem' : Mem} {ptr n m fuel resid : Nat} {u u' : Uio} {v : Iovec}
  {iov rest : List Iovec} {rw : UioRw}

/-- The addresses of the first buffer come first. -/
@[simp] lemma addrs_cons : addrs (v :: iov) = List.range' v.base v.len ++ addrs iov := rfl

/-- With nothing moved the request is as it was. -/
lemma Left.refl (u : Uio) : Left 0 u u := ⟨rfl, (add_zero _).symm, rfl, rfl, rfl, rfl⟩

/-- Amounts moved one after another add up. -/
lemma Left.trans {m' : Nat} {u'' : Uio} (h : Left m u u') (h' : Left m' u' u'') : Left (m + m') u u'' where
  resid := by
    have first := h.resid
    have second := h'.resid
    omega
  offset := by
    rw [h'.offset, h.offset, Nat.cast_add, add_assoc]
  iov := by
    rw [h'.iov, h.iov, List.drop_drop]
  segflg := h'.segflg.trans h.segflg
  rw := h'.rw.trans h.rw
  space := h'.space.trans h.space

/-- Moving within one buffer takes the amount off it. -/
lemma Left.advance {size : Nat} (iov : u.iov = v :: rest) (le : size ≤ v.len) (le' : size ≤ u.resid)
    (lt : u.resid < 2 ^ 32) : Left size u (u.advance v rest size) where
  resid := by
    rw [Uio.advance, wsub_of_le le' lt]
    exact Nat.sub_add_cancel le'
  offset := rfl
  iov := by
    rw [iov, Uio.advance, addrs_cons, addrs_cons, List.drop_append, List.drop_range', List.length_range', Nat.mul_one,
      Nat.sub_eq_zero_of_le le, List.drop_zero]
  segflg := rfl
  rw := rfl
  space := rfl

end PDS.Uiomove
