import PDS.Lib.Simulation
import PDS.Sfs.DirMap

/-!
# A volume as its callers see it

What a mounted volume is for: names, files that are arrays of bytes, and the handles that callers hold. `Tree.Step` says
what each call of the VFS layer does to them, and why it fails; nothing is said about blocks. A file lives as long as it
has a name or a handle, and a volume that is unmounted and mounted again is the same.

An unlinked file that is held stays, and nothing but a write or a truncation changes it (`Tree.Step.holds`). A write that
fails may have been done in part, and ends where it stopped; and a file that is cut may keep what is past its end, as the
last block is not cleared.
-/

namespace PDS.Sfs
open Kern

/-- A volume: the files that names stand for, their sizes and bytes, and for each handle the number of references to it
and its file. The root directory is the file `1`. -/
structure Tree where
  dir : List UInt8 → Option Nat
  size : Nat → Nat
  byte : Nat → Nat → UInt8
  refs : Nat → Nat
  ino : Nat → Nat

namespace Tree

/-- A new volume. -/
def empty : Tree := ⟨fun _ => none, fun _ => 0, fun _ _ => 0, fun _ => 0, fun _ => 0⟩

/-- A file is there. -/
def Live (t : Tree) (i : Nat) : Prop := i = 1 ∨ (∃ name, t.dir name = some i) ∨ ∃ v, 0 < t.refs v ∧ t.ino v = i

/-- `sv` is the handle to hand out for a file: the one it has, or a new one. -/
def Hands (t : Tree) (sv i : Nat) : Prop := ∀ v, 0 < t.refs v → (t.ino v = i ↔ v = sv)

/-- A reference is taken. -/
def hold (t : Tree) (sv i : Nat) : Tree :=
  { t with refs := Function.update t.refs sv (t.refs sv + 1), ino := Function.update t.ino sv i }

/-- A reference is dropped. -/
def drop (t : Tree) (sv : Nat) : Tree := { t with refs := Function.update t.refs sv (t.refs sv - 1) }

/-- A name is entered. -/
def enter (t : Tree) (name : List UInt8) (i : Nat) : Tree := { t with dir := Function.update t.dir name (some i) }

/-- A name is erased. -/
def erase (t : Tree) (name : List UInt8) : Tree := { t with dir := Function.update t.dir name none }

/-- A file is there, without contents. -/
def create (t : Tree) (i : Nat) : Tree :=
  { t with size := Function.update t.size i 0, byte := Function.update t.byte i fun _ => 0 }

/-- The bytes of a file from `pos` on. -/
def bytes (t : Tree) (i pos n : Nat) : List UInt8 := (List.range' pos n).map (t.byte i)

/-- How many bytes a request for `n` bytes gets. -/
def avail (t : Tree) (i pos n : Nat) : Nat := min n (t.size i - pos)

/-- Bytes are stored from `pos` on. -/
def write (t : Tree) (i pos : Nat) (bytes : List UInt8) : Tree :=
  { t with
    size := Function.update t.size i (max (t.size i) (pos + bytes.length))
    byte := Function.update t.byte i fun p =>
      if pos ≤ p ∧ p < pos + bytes.length then bytes.getD (p - pos) 0 else t.byte i p }

/-- A file has `len` bytes from now on; `past` is what is past its end. -/
def cut (t : Tree) (i len : Nat) (past : Nat → UInt8) : Tree :=
  { t with
    size := Function.update t.size i len
    byte := Function.update t.byte i fun p => if p < len then t.byte i p else past p }

end Tree

/-- What a call delivers: the vnode that it hands out, or the request as it has been served. -/
inductive Answer where
  | done
  | vnode (sv : Nat)
  | io (u : Uio)

/-- Executes a call, and returns all that it delivers. -/
def SfsOp.serve : SfsOp → SfsM Answer
  | .getroot => do return .vnode (← sfsGetroot)
  | .lookup v path => do return .vnode (← onDir v (sfsLookup v path))
  | .creat v name excl => do return .vnode (← onDir v (sfsCreat v name excl))
  | .link dir name file => do onDir dir (sfsLink dir name file); return .done
  | .remove dir name => do onDir dir (sfsRemove dir name); return .done
  | .rename d1 n1 d2 n2 => do onDir d1 (sfsRename d1 n1 d2 n2); return .done
  | .read v u => do return .io (← withUio u (vopIo v .read))
  | .write v u => do return .io (← withUio u (vopIo v .write))
  | .truncate v len => do vopTruncate v len; return .done
  | .incref v => do vopIncref v; return .done
  | .decref v => do vopDecref v; return .done
  | .fsync v => do sfsFsync v; return .done
  | .sync => do sfsSync; return .done

/-- The vnode that must be a directory. -/
def SfsOp.dirVnode? : SfsOp → Option Nat
  | .lookup v _ | .creat v _ _ | .link v _ _ | .remove v _ | .rename v _ _ _ => some v
  | _ => none

/-- The vnode that must not be one. -/
def SfsOp.fileVnode? : SfsOp → Option Nat
  | .read v _ | .write v _ | .truncate v _ => some v
  | _ => none

/-- The vnode whose file is written or cut. -/
def SfsOp.storesVnode? : SfsOp → Option Nat
  | .write v _ | .truncate v _ => some v
  | _ => none

/-- Why a call fails without doing anything. -/
inductive Tree.Refuses (t : Tree) : SfsOp → Nat → Prop
  | notDir {op : SfsOp} {v : Nat} : op.dirVnode? = some v → t.ino v ≠ 1 → Refuses t op enotdir
  | isDir {op : SfsOp} {v : Nat} : op.fileVnode? = some v → t.ino v = 1 → Refuses t op eisdir
  | dir {op : SfsOp} {e : Nat} : op.Fails t.dir e → Refuses t op e
  /-- past the largest size of a file -/
  | large {v : Nat} {u : Uio} : 143 * 512 < u.offset + t.avail (t.ino v) u.offset u.resid ∨ u.resid = 0 →
      Refuses t (.read v u) efbig

/-- What a call does. -/
inductive Tree.Step (t : Tree) : SfsOp → Except Nat Answer → Tree → Prop
  | getroot {sv : Nat} : t.Hands sv 1 → Step t .getroot (.ok (.vnode sv)) (t.hold sv 1)
  | lookup {v sv i : Nat} {path : CStr} : t.dir path.val = some i → t.Hands sv i →
      Step t (.lookup v path) (.ok (.vnode sv)) (t.hold sv i)
  /-- the name exists -/
  | found {v sv i : Nat} {name : CStr} : t.dir name.val = some i → t.Hands sv i →
      Step t (.creat v name false) (.ok (.vnode sv)) (t.hold sv i)
  | creat {v sv i : Nat} {name : CStr} {excl : Bool} : t.dir name.val = none → ¬ t.Live i → t.refs sv = 0 →
      Step t (.creat v name excl) (.ok (.vnode sv)) (((t.create i).enter name.val i).hold sv i)
  | link {dir file : Nat} {name : CStr} : t.dir name.val = none →
      Step t (.link dir name file) (.ok .done) (t.enter name.val (t.ino file))
  | remove {dir : Nat} {name : CStr} : t.dir name.val ≠ none →
      Step t (.remove dir name) (.ok .done) (t.erase name.val)
  | rename {d1 d2 i : Nat} {n1 n2 : CStr} : t.dir n1.val = some i → t.dir n2.val = none →
      Step t (.rename d1 n1 d2 n2) (.ok .done) ((t.enter n2.val i).erase n1.val)
  | read {v : Nat} {u : Uio} : t.ino v ≠ 1 →
      Step t (.read v u)
        (.ok (.io (u.put (t.bytes (t.ino v) u.offset (t.avail (t.ino v) u.offset u.resid))))) t
  | write {v : Nat} {u : Uio} : t.ino v ≠ 1 →
      Step t (.write v u) (.ok (.io (u.advance u.resid))) (t.write (t.ino v) u.offset (u.data.take u.resid))
  /-- a write that stops after `m` bytes, as there is no space or the file gets too large -/
  | stops {v m e : Nat} {u : Uio} : t.ino v ≠ 1 → m < u.resid ∨ u.resid = 0 →
      e = enospc ∨ e = efbig ∧ 143 * 512 ≤ u.offset + m →
      Step t (.write v u) (.error e) (t.write (t.ino v) u.offset (u.data.take m))
  | truncate {v len : Nat} {past : Nat → UInt8} : t.ino v ≠ 1 →
      Step t (.truncate v len) (.ok .done) (t.cut (t.ino v) len past)
  | incref {v : Nat} : Step t (.incref v) (.ok .done) (t.hold v (t.ino v))
  | decref {v : Nat} : Step t (.decref v) (.ok .done) (t.drop v)
  | fsync {v : Nat} : Step t (.fsync v) (.ok .done) t
  | sync : Step t .sync (.ok .done) t
  | error {op : SfsOp} {e : Nat} : t.Refuses op e → Step t op (.error e) t

/-- The file `i` is held through the vnode `v`, and has these contents. -/
structure Tree.Holds (v i size : Nat) (byte : Nat → UInt8) (t : Tree) : Prop where
  held : 0 < t.refs v
  ino : t.ino v = i
  size : t.size i = size
  byte : t.byte i = byte

section

variable {t t' : Tree} {op : SfsOp} {r : Except Nat Answer} {v sv i j size : Nat} {byte : Nat → UInt8}

/-- A file that is held is live. -/
lemma Tree.Holds.live (h : t.Holds v i size byte) : t.Live i := .inr (.inr ⟨v, h.held, h.ino⟩)

/-- Another reference taken. -/
lemma Tree.Holds.hold (h : t.Holds v i size byte) (hands : v = sv → i = j) : (t.hold sv j).Holds v i size byte := by
  refine ⟨?_, ?_, h.size, h.byte⟩
  · show 0 < Function.update t.refs sv (t.refs sv + 1) v
    by_cases here : v = sv
    · rw [here, Function.update_self]
      exact Nat.succ_pos _
    · rw [Function.update_of_ne here]
      exact h.held
  · show Function.update t.ino sv j v = i
    by_cases here : v = sv
    · rw [here, Function.update_self, hands here]
    · rw [Function.update_of_ne here, h.ino]

/-- A reference given up while the holder's is left. -/
lemma Tree.Holds.drop (h : t.Holds v i size byte) (left : sv = v → 1 < t.refs v) : (t.drop sv).Holds v i size byte := by
  refine ⟨?_, h.ino, h.size, h.byte⟩
  show 0 < Function.update t.refs sv (t.refs sv - 1) v
  by_cases here : sv = v
  · have left := left here
    rw [here, Function.update_self]
    omega
  · rw [Function.update_of_ne (Ne.symm here)]
    exact h.held

/-- The contents of another file change. -/
lemma Tree.Holds.stores (h : t.Holds v i size byte) (other : j ≠ i) {size' : Nat} {byte' : Nat → UInt8} :
    Tree.Holds v i size byte
      { t with size := Function.update t.size j size', byte := Function.update t.byte j byte' } where
  held := h.held
  ino := h.ino
  size := (Function.update_of_ne other.symm ..).trans h.size
  byte := (Function.update_of_ne other.symm ..).trans h.byte

/-- The holder's vnode is handed out for its own file only. -/
lemma Tree.Holds.hands (h : t.Holds v i size byte) (hands : t.Hands sv j) (same : v = sv) : i = j :=
  h.ino.symm.trans ((hands v h.held).2 same)

/-- Only writes and truncations change a file that is held, and only through its vnode. -/
lemma Tree.Step.holds (step : t.Step op r t') (h : t.Holds v i size byte) (kept : op = .decref v → 1 < t.refs v)
    (apart : ∀ w, op.storesVnode? = some w → t.ino w ≠ i) : t'.Holds v i size byte := by
  cases step with
  | getroot hands => exact h.hold (h.hands hands)
  | lookup _ hands => exact h.hold (h.hands hands)
  | found _ hands => exact h.hold (h.hands hands)
  | @creat _ sv j name _ _ new unused =>
    have other : j ≠ i := fun same => new (same ▸ h.live)
    have fresh : v ≠ sv := by
      rintro rfl
      exact Nat.lt_irrefl 0 (unused ▸ h.held)
    have created : (t.create j).Holds v i size byte := h.stores other
    have entered : ((t.create j).enter name.val j).Holds v i size byte :=
      ⟨created.held, created.ino, created.size, created.byte⟩
    exact entered.hold fun same => absurd same fresh
  | link => exact ⟨h.held, h.ino, h.size, h.byte⟩
  | remove => exact ⟨h.held, h.ino, h.size, h.byte⟩
  | rename => exact ⟨h.held, h.ino, h.size, h.byte⟩
  | read => exact h
  | write => exact h.stores (apart _ rfl)
  | stops => exact h.stores (apart _ rfl)
  | truncate => exact h.stores (apart _ rfl)
  | @incref w =>
    refine h.hold ?_
    rintro rfl
    exact h.ino.symm
  | decref => exact h.drop fun same => kept (congrArg SfsOp.decref same)
  | fsync => exact h
  | sync => exact h
  | error => exact h

end

/-- What happens to a volume: a call with its result, or the volume is unmounted and its disk mounted again. -/
inductive VolumeEvent where
  | call (op : SfsOp) (result : Except Nat Answer)
  | remount

/-- The runs of the abstract volume. -/
def Tree.lts : Lts Tree VolumeEvent where
  init t := t = .empty
  step t e t' := match e with
    | .call op r => t.Step op r t'
    | .remount => (∀ v, t.refs v = 0) ∧ t' = t

/-- A step that neither gives up the last reference to the vnode `v`, nor writes or cuts the file `i`. -/
def VolumeEvent.Spares (v i : Nat) (s : SfsFs) : VolumeEvent → Prop
  | .call op _ => (op = .decref v → 1 < s.refs v) ∧ ∀ w, op.storesVnode? = some w → (s.vnode w).ino ≠ i
  | .remount => True

/-- What callers keep to: only regular files are linked, files are renamed within the root directory, and sizes have
`32` bits. -/
def SfsOp.Allowed (s : SfsFs) : SfsOp → Prop
  | .link _ _ file => (s.vnode file).i.type = typeFile
  | .rename d1 _ d2 _ => (s.vnode d1).ino = 1 → d2 = d1
  | .write _ u => u.offset + u.resid < 2 ^ 32
  | .truncate _ len => 0 ≤ len ∧ len < 2 ^ 32
  | _ => True

/-- The runs of a volume that is made by `mksfs` and mounted. -/
def volume : Lts SfsFs VolumeEvent where
  init s := ∃ arg d d', mksfs arg d = some d' ∧ sfsDomount d' = .ok (.ok (), s)
  step s e s' := match e with
    | .call op r => op.Valid s ∧ op.Allowed s ∧ op.serve s = .ok (r, s')
    | .remount => ∃ s₁ s₂, sfsSync s = .ok (.ok (), s₁) ∧ sfsUnmount s₁ = .ok (.ok (), s₂) ∧
        sfsDomount s₂.dev = .ok (.ok (), s')

end PDS.Sfs
