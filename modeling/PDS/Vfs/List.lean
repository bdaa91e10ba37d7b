import PDS.Sfs.Vfs
import PDS.Lib.Names

/-!
# The table of devices

Port of the device table of `kern/vfs/vfslist.c`: `vfs_getroot`, `vfs_adddev`, `vfs_addfs`, `vfs_mount` and `vfs_unmount`.
Devices, vnodes and file systems are of any types `D`, `V` and `F`; `volname` is `FSOP_GETVOLNAME`. Which allocations
fail, and what the file system does, are arguments of the calls.
-/

namespace PDS.Vfs
open Kern Sfs Names

/-- Device not available (C `ENXIO`). -/
def enxio : Nat := 26

/-- A single named device (C `struct knowndev`). -/
structure KnownDev (D V F : Type) where
  name : List UInt8
  rawname : Option (List UInt8)
  device : Option D
  vnode : V
  fs : Option F
deriving DecidableEq

variable {D V F : Type}

/-- Assemble the name for a raw device from the name for the regular device (C `mkrawname`). -/
def mkrawname (name : List UInt8) : List UInt8 := name ++ [114, 97, 119]

/-- Check if the two strings passed in are the same, if they're both not NULL (C `samestring`). -/
def samestring : Option (List UInt8) → Option (List UInt8) → Bool
  | some a, some b => a = b
  | _, _ => false

/-- Check if the first string passed is the same as any of the three others (C `samestring3`). -/
def samestring3 (a b c d : Option (List UInt8)) : Bool := samestring a b || samestring a c || samestring a d

section

variable (volname : F → Option (List UInt8))

/-- The names of a device: its own, that of the raw device, and that of the volume. -/
def KnownDev.names (kd : KnownDev D V F) : List (List UInt8) :=
  kd.name :: (kd.rawname.toList ++ (kd.fs.bind volname).toList)

/-- Check if any of the three names passed in already exists as a device name (C `badnames`). -/
def badnames (devs : List (KnownDev D V F)) (n1 n2 n3 : Option (List UInt8)) : Bool :=
  devs.any fun kd =>
    (match kd.fs with
      | some fs => samestring3 (volname fs) n1 n2 n3
      | none => false) ||
    samestring3 kd.rawname n1 n2 n3 || samestring3 (some kd.name) n1 n2 n3

/-- Which of the allocations of `vfs_doadd` succeed. -/
structure DoaddMem (V : Type) where
  name : Bool
  rawname : Bool
  /-- what `dev_create_vnode` returns -/
  vnode : Option V
  kd : Bool
  array : Bool

/-- Add a new device to the device table; the value is the device number (C `vfs_doadd`). -/
def vfsDoadd (devs : List (KnownDev D V F)) (dname : List UInt8) (mountable : Bool) (dev : Option D) (fs : Option F)
    (mem : DoaddMem V) : Except Nat Nat × List (KnownDev D V F) :=
  if mem.name = false then (.error enomem, devs)
  else if mountable = true ∧ mem.rawname = false then (.error enomem, devs)
  else
    match mem.vnode with
    | none => (.error enomem, devs)
    | some vnode =>
      if mem.kd = false then (.error enomem, devs)
      else
        let rawname := if mountable then some (mkrawname dname) else none
        if badnames volname devs (some dname) rawname (fs.bind volname) then (.error eexist, devs)
        else if mem.array = false then (.error enomem, devs)
        else (.ok (devs.length + 1), devs ++ [⟨dname, rawname, dev, vnode, fs⟩])

/-- Add a new device, by name (C `vfs_adddev`). -/
def vfsAdddev (devs : List (KnownDev D V F)) (devname : List UInt8) (dev : D) (mountable : Bool) (mem : DoaddMem V) :
    Except Nat Nat × List (KnownDev D V F) :=
  vfsDoadd volname devs devname mountable (some dev) none mem

/-- Add a filesystem that does not have an underlying device (C `vfs_addfs`). -/
def vfsAddfs (devs : List (KnownDev D V F)) (devname : List UInt8) (fs : F) (mem : DoaddMem V) :
    Except Nat Nat × List (KnownDev D V F) :=
  vfsDoadd volname devs devname false none (some fs) mem

/-- Look for a mountable device named `devname` (C `findmount`). -/
def findmount (devname : List UInt8) : List (KnownDev D V F) → Option (Nat × KnownDev D V F)
  | [] => none
  | kd :: devs =>
    if kd.rawname ≠ none ∧ devname = kd.name then some (0, kd)
    else (findmount devname devs).map fun found => (found.1 + 1, found.2)

/-- Mount a filesystem (C `vfs_mount`). -/
def vfsMount (devs : List (KnownDev D V F)) (devname : List UInt8) (mountfunc : D → Except Nat F) :
    Except Halt (Except Nat Unit × List (KnownDev D V F)) :=
  match findmount devname devs with
  | none => .ok (.error enodev, devs)
  | some (i, kd) =>
    if kd.fs.isSome then .ok (.error ebusy, devs)
    else
      match kd.device with
      | none => .error (.kassert "kd->kd_device != NULL")
      | some dev =>
        match mountfunc dev with
        | .error e => .ok (.error e, devs)
        | .ok fs => .ok (.ok (), devs.set i { kd with fs := some fs })

/-- Unmount a filesystem by name; `sync` and `unmount` are `FSOP_SYNC` and `FSOP_UNMOUNT` (C `vfs_unmount`). -/
def vfsUnmount (devs : List (KnownDev D V F)) (devname : List UInt8) (sync unmount : F → Except Nat Unit) :
    Except Halt (Except Nat Unit × List (KnownDev D V F)) :=
  match findmount devname devs with
  | none => .ok (.error enodev, devs)
  | some (i, kd) =>
    match kd.fs with
    | none => .ok (.error einval, devs)
    | some fs =>
      match kd.device with
      | none => .error (.kassert "kd->kd_device != NULL")
      | some _ =>
        match sync fs with
        | .error e => .ok (.error e, devs)
        | .ok () =>
          match unmount fs with
          | .error e => .ok (.error e, devs)
          | .ok () => .ok (.ok (), devs.set i { kd with fs := none })

/-- What a name stands for: the root of a file system, or a device. -/
inductive Named (V F : Type) where
  | root (fs : F)
  | device (vn : V)
deriving DecidableEq

/-- The device itself. -/
def KnownDev.itself (kd : KnownDev D V F) : Except Halt (Except Nat (Named V F)) :=
  match kd.device with
  | none => .error (.kassert "kd->kd_device != NULL")
  | some _ => .ok (.ok (.device kd.vnode))

/-- What `devname` stands for, if it is one of the names of the device (in C `vfs_getroot`). -/
def KnownDev.resolve (kd : KnownDev D V F) (devname : List UInt8) : Option (Except Halt (Except Nat (Named V F))) :=
  match kd.fs with
  | some fs =>
    if kd.name = devname ∨ volname fs = some devname then some (.ok (.ok (.root fs)))
    else if kd.rawname = some devname then some kd.itself
    else none
  | none =>
    if kd.rawname ≠ none ∧ kd.name = devname then some (.ok (.error enxio))
    else if kd.name = devname then some kd.itself
    else if kd.rawname = some devname then some kd.itself
    else none

/-- Given a device name, hand back an appropriate vnode, or the file system whose root it is (C `vfs_getroot`). -/
def vfsGetroot (devs : List (KnownDev D V F)) (devname : List UInt8) : Except Halt (Except Nat (Named V F)) :=
  (devs.findSome? fun kd => kd.resolve volname devname).getD (.ok (.error enodev))

/-- The calls that change the table. -/
inductive ListCall (D V F : Type) where
  | adddev (devname : List UInt8) (dev : D) (mountable : Bool) (mem : DoaddMem V)
  | addfs (devname : List UInt8) (fs : F) (mem : DoaddMem V)
  | mount (devname : List UInt8) (mountfunc : D → Except Nat F)
  | unmount (devname : List UInt8) (sync unmount : F → Except Nat Unit)

/-- The table after a call. -/
def listCall (devs : List (KnownDev D V F)) : ListCall D V F → Except Halt (List (KnownDev D V F))
  | .adddev devname dev mountable mem => .ok (vfsAdddev volname devs devname dev mountable mem).2
  | .addfs devname fs mem => .ok (vfsAddfs volname devs devname fs mem).2
  | .mount devname mountfunc => (vfsMount devs devname mountfunc).map Prod.snd
  | .unmount devname sync unmount => (vfsUnmount devs devname sync unmount).map Prod.snd

/-- The tables of the runs whose calls are all `ok`. -/
inductive ListReach (ok : List (KnownDev D V F) → ListCall D V F → Prop) : List (KnownDev D V F) → Prop where
  | bootstrap : ListReach ok []
  | call {devs c devs'} : ListReach ok devs → ok devs c → listCall volname devs c = .ok devs' → ListReach ok devs'

/-- If the call mounts a volume, then its name is not one of the names of another device. -/
def ListCall.Fresh (devs : List (KnownDev D V F)) : ListCall D V F → Prop
  | .mount devname mountfunc => ∀ i kd dev fs, findmount devname devs = some (i, kd) → kd.fs = none →
      kd.device = some dev → mountfunc dev = .ok fs → badnames volname (devs.eraseIdx i) (volname fs) none none = false
  | _ => True

/-- No string is a name of two different devices, and the order of the table does not matter to `vfs_getroot`. -/
def NamesUnique (devs : List (KnownDev D V F)) : Prop :=
  Unique (KnownDev.names volname) devs ∧
    ∀ devs', devs.Perm devs' → ∀ devname, vfsGetroot volname devs devname = vfsGetroot volname devs' devname

variable {volname} {devs devs' : List (KnownDev D V F)} {kd : KnownDev D V F} {n : List UInt8}

/-- Two strings are the same if both are there and equal. -/
lemma samestring_iff {a b : Option (List UInt8)} : samestring a b = true ↔ ∃ n, a = some n ∧ b = some n := by
  cases a with
  | none => exact iff_of_false nofun nofun
  | some a =>
    cases b with
    | none => exact iff_of_false nofun nofun
    | some b =>
      rw [samestring, decide_eq_true_iff]
      constructor
      · rintro rfl
        exact ⟨a, rfl, rfl⟩
      · rintro ⟨n, ha, hb⟩
        exact Option.some.inj (ha.trans hb.symm)

/-- The first string is one of the other three. -/
lemma samestring3_iff {a b c d : Option (List UInt8)} :
    samestring3 a b c d = true ↔ ∃ n, a = some n ∧ (b = some n ∨ c = some n ∨ d = some n) := by
  simp only [samestring3, Bool.or_eq_true, samestring_iff, or_assoc, and_or_left, exists_or]

/-- The names a device answers to. -/
lemma mem_names : n ∈ kd.names volname ↔ kd.fs.bind volname = some n ∨ kd.rawname = some n ∨ kd.name = n := by
  rw [KnownDev.names, List.mem_cons, List.mem_append, Option.mem_toList, Option.mem_toList, eq_comm, or_rotate, or_comm,
    or_assoc, or_comm (a := kd.name = n)]

/-- The check finds a name that is already there. -/
lemma badnames_eq_false {n1 n2 n3 : Option (List UInt8)} : badnames volname devs n1 n2 n3 = false ↔
    ∀ kd ∈ devs, ∀ n, n1 = some n ∨ n2 = some n ∨ n3 = some n → n ∉ kd.names volname := by
  rw [badnames, List.any_eq_false]
  refine forall₂_congr fun kd _ => ?_
  have vol : (match kd.fs with
      | some fs => samestring3 (volname fs) n1 n2 n3
      | none => false) = samestring3 (kd.fs.bind volname) n1 n2 n3 := by
    cases kd.fs <;> rfl
  rw [vol]
  simp only [Bool.or_eq_true, samestring3_iff, mem_names, ← exists_or, ← or_and_right, not_exists, not_and, or_assoc,
    Option.some.injEq]
  exact forall_congr' fun n => ⟨fun h new old => h old new, fun h old new => h new old⟩

/-- The entry that is found is in the table. -/
lemma findmount_get {devname : List UInt8} {i : Nat} (found : findmount devname devs = some (i, kd)) :
    devs[i]? = some kd := by
  induction devs generalizing i with
  | nil => cases found
  | cons d devs ih =>
    rw [findmount] at found
    split at found
    · cases found
      rfl
    · obtain ⟨⟨j, kd'⟩, rest, same⟩ := Option.map_eq_some_iff.1 found
      cases same
      exact ih rest

/-- A name that is found is a name of the device. -/
lemma mem_names_of_resolve (h : kd.resolve volname n ≠ none) : n ∈ kd.names volname := by
  rw [mem_names]
  rw [KnownDev.resolve] at h
  split at h
  next fs mounted =>
    rw [mounted]
    split at h
    next named => exact named.elim (fun e => .inr (.inr e)) .inl
    next =>
      split at h
      next raw => exact .inr (.inl raw)
      next => exact absurd rfl h
  next =>
    split at h
    next named => exact .inr (.inr named.2)
    next =>
      split at h
      next named => exact .inr (.inr named)
      next =>
        split at h
        next raw => exact .inr (.inl raw)
        next => exact absurd rfl h

/-- Unique names are enough for `vfs_getroot`. -/
lemma namesUnique_iff : NamesUnique volname devs ↔ Unique (KnownDev.names volname) devs := by
  refine ⟨And.left, fun unique => ⟨unique, fun devs' perm devname => ?_⟩⟩
  rw [vfsGetroot, vfsGetroot, unique.findSome?_perm perm fun kd => mem_names_of_resolve]

/-- A new device has new names. -/
lemma unique_doadd (unique : Unique (KnownDev.names volname) devs) (dname : List UInt8) (mountable : Bool)
    (dev : Option D) (fs : Option F) (mem : DoaddMem V) :
    Unique (KnownDev.names volname) (vfsDoadd volname devs dname mountable dev fs mem).2 := by
  rw [vfsDoadd]
  split
  · exact unique
  split
  · exact unique
  cases mem.vnode with
  | none => exact unique
  | some vnode =>
    dsimp only
    generalize (if mountable then some (mkrawname dname) else none) = rawname
    split
    · exact unique
    split
    · exact unique
    next new =>
      split
      · exact unique
      · rw [Bool.not_eq_true, badnames_eq_false] at new
        refine List.pairwise_append.2 ⟨unique, List.pairwise_singleton .., fun kd old kd' added => ?_⟩
        rw [List.mem_singleton] at added
        subst added
        intro n mem mem'
        refine new kd old n ?_ mem
        obtain vol | raw | name := mem_names.1 mem'
        · exact .inr (.inr vol)
        · exact .inr (.inl raw)
        · exact .inl (congrArg some name)

/-- A volume is mounted. -/
lemma unique_mount_iff {devname : List UInt8} {i : Nat} {fs : F} (unique : Unique (KnownDev.names volname) devs)
    (found : findmount devname devs = some (i, kd)) :
    Unique (KnownDev.names volname) (devs.set i { kd with fs := some fs }) ↔
      badnames volname (devs.eraseIdx i) (volname fs) none none = false := by
  have get := findmount_get found
  rw [unique_set get, badnames_eq_false]
  constructor
  · rintro ⟨apart, -⟩ o mem n (vol | vol | vol)
    · exact apart o mem (mem_names.2 (.inl vol))
    · cases vol
    · cases vol
  · intro fresh
    refine ⟨fun o mem n here there => ?_, unique.erase⟩
    obtain vol | old := mem_names.1 here
    · exact fresh o mem n (.inl vol) there
    · exact unique.apart get mem (mem_names.2 (.inr old)) there

/-- A volume is unmounted. -/
lemma unique_unmount {devname : List UInt8} {i : Nat} (unique : Unique (KnownDev.names volname) devs)
    (found : findmount devname devs = some (i, kd)) :
    Unique (KnownDev.names volname) (devs.set i { kd with fs := none }) := by
  have get := findmount_get found
  refine (unique_set get).2 ⟨fun o mem n here there => ?_, unique.erase⟩
  obtain vol | old := mem_names.1 here
  · cases vol
  · exact unique.apart get mem (mem_names.2 (.inr old)) there

/-- What a call of `vfs_mount` can do. -/
lemma mount_cases {devname : List UInt8} {mountfunc : D → Except Nat F}
    (call : listCall volname devs (.mount devname mountfunc) = .ok devs') :
    devs' = devs ∨ ∃ i kd dev fs, findmount devname devs = some (i, kd) ∧ kd.fs = none ∧ kd.device = some dev ∧
      mountfunc dev = .ok fs ∧ devs' = devs.set i { kd with fs := some fs } := by
  rw [listCall, vfsMount] at call
  cases found : findmount devname devs with
  | none =>
    rw [found] at call
    cases call
    exact .inl rfl
  | some f =>
    obtain ⟨i, kd⟩ := f
    rw [found] at call
    dsimp only at call
    split at call
    · cases call
      exact .inl rfl
    next unmounted =>
      cases device : kd.device with
      | none =>
        rw [device] at call
        cases call
      | some dev =>
        rw [device] at call
        dsimp only at call
        cases mount : mountfunc dev with
        | error e =>
          rw [mount] at call
          cases call
          exact .inl rfl
        | ok fs =>
          rw [mount] at call
          cases call
          exact .inr ⟨i, kd, dev, fs, rfl, Option.not_isSome_iff_eq_none.1 unmounted, device, mount, by rw [device]⟩

/-- A mount that is made. -/
lemma mount_ok {devname : List UInt8} {mountfunc : D → Except Nat F} {i : Nat} {dev : D} {fs : F}
    (found : findmount devname devs = some (i, kd)) (unmounted : kd.fs = none) (device : kd.device = some dev)
    (mount : mountfunc dev = .ok fs) :
    listCall volname devs (.mount devname mountfunc) = .ok (devs.set i { kd with fs := some fs }) := by
  rw [listCall, vfsMount, found]
  dsimp only
  rw [if_neg (Option.not_isSome_iff_eq_none.2 unmounted), device]
  dsimp only
  rw [mount]
  rfl

/-- What a call of `vfs_unmount` can do. -/
lemma unmount_cases {devname : List UInt8} {sync unmount : F → Except Nat Unit}
    (call : listCall volname devs (.unmount devname sync unmount) = .ok devs') :
    devs' = devs ∨ ∃ i kd, findmount devname devs = some (i, kd) ∧ devs' = devs.set i { kd with fs := none } := by
  rw [listCall, vfsUnmount] at call
  cases found : findmount devname devs with
  | none =>
    rw [found] at call
    cases call
    exact .inl rfl
  | some f =>
    obtain ⟨i, kd⟩ := f
    rw [found] at call
    dsimp only at call
    split at call
    · cases call
      exact .inl rfl
    next fs _ =>
      split at call
      · cases call
      split at call
      · cases call
        exact .inl rfl
      split at call
      · cases call
        exact .inl rfl
      · cases call
        exact .inr ⟨i, kd, rfl, rfl⟩

/-- A call keeps the names unique, as long as it mounts no volume whose name is taken. -/
lemma unique_call {c : ListCall D V F} (unique : Unique (KnownDev.names volname) devs) (fresh : c.Fresh volname devs)
    (call : listCall volname devs c = .ok devs') : Unique (KnownDev.names volname) devs' := by
  cases c with
  | adddev devname dev mountable mem =>
    cases call
    exact unique_doadd unique ..
  | addfs devname fs mem =>
    cases call
    exact unique_doadd unique ..
  | mount devname mountfunc =>
    obtain rfl | ⟨i, kd, dev, fs, found, unmounted, device, mount, rfl⟩ := mount_cases call
    · exact unique
    · exact (unique_mount_iff unique found).2 (fresh i kd dev fs found unmounted device mount)
  | unmount devname sync unmount =>
    obtain rfl | ⟨i, kd, found, rfl⟩ := unmount_cases call
    · exact unique
    · exact unique_unmount unique found

/-- A call that mounts a volume whose name is taken does not. -/
lemma fresh_of_unique {c : ListCall D V F} (unique : Unique (KnownDev.names volname) devs)
    (after : ∀ devs', listCall volname devs c = .ok devs' → Unique (KnownDev.names volname) devs') :
    c.Fresh volname devs := by
  cases c with
  | mount devname mountfunc =>
    intro i kd dev fs found unmounted device mount
    exact (unique_mount_iff unique found).1 (after _ (mount_ok found unmounted device mount))
  | _ => trivial

/-- In the runs of any kind, the names of the devices stay unique if and only if no call mounts a volume whose name is
one of the names of another device. -/
theorem names_unique_iff (ok : List (KnownDev D V F) → ListCall D V F → Prop) :
    (∀ devs, ListReach volname ok devs → NamesUnique volname devs) ↔
      ∀ devs c, ListReach volname ok devs → ok devs c → c.Fresh volname devs := by
  simp only [namesUnique_iff]
  constructor
  · intro unique devs c reach may
    exact fresh_of_unique (unique devs reach) fun devs' call => unique devs' (.call reach may call)
  · intro fresh devs reach
    induction reach with
    | bootstrap => exact List.Pairwise.nil
    | call reach may call ih => exact unique_call ih (fresh _ _ reach may) call

end

/-- All allocations succeed. -/
def enoughMem (vnode : Nat) : DoaddMem Nat := ⟨true, true, some vnode, true, true⟩

/-- Two volumes of the same name are mounted, and the order of the table decides which one the name stands for. -/
theorem names_unique_two_volumes : ∃ devs devs' : List (KnownDev Nat Nat Nat),
    ListReach (fun _ => some [118]) (fun _ _ => True) devs ∧ ¬ Unique (KnownDev.names fun _ => some [118]) devs ∧
    devs.Perm devs' ∧ vfsGetroot (fun _ => some [118]) devs [118] = .ok (.ok (.root 0)) ∧
    vfsGetroot (fun _ => some [118]) devs' [118] = .ok (.ok (.root 1)) := by
  let lhd0 : KnownDev Nat Nat Nat := ⟨[108, 48], some [108, 48, 114, 97, 119], some 0, 0, some 0⟩
  let lhd1 : KnownDev Nat Nat Nat := ⟨[108, 49], some [108, 49, 114, 97, 119], some 1, 1, some 1⟩
  have r0 : ListReach (fun _ => some [118]) (fun _ _ => True) ([] : List (KnownDev Nat Nat Nat)) := .bootstrap
  have r1 := r0.call (c := .adddev [108, 48] 0 true (enoughMem 0)) trivial rfl
  have r2 := r1.call (c := .adddev [108, 49] 1 true (enoughMem 1)) trivial rfl
  have r3 := r2.call (c := .mount [108, 48] fun dev => .ok dev) trivial rfl
  have r4 := r3.call (c := .mount [108, 49] fun dev => .ok dev) trivial rfl
  refine ⟨[lhd0, lhd1], [lhd1, lhd0], r4, fun unique => ?_, .swap .., rfl, rfl⟩
  have apart := (List.pairwise_cons.1 unique).1 lhd1 List.mem_cons_self
  exact apart (mem_names.2 (.inl rfl)) (mem_names.2 (.inl rfl))

end PDS.Vfs
