import PDS.Lib.Ring

/-!
# Console input

Port of `getch_intr` and `con_input` in `kern/dev/generic/console.c`, for one thread that reads and one interrupt handler
that puts characters in. Each stops between the accesses to the ring and to the semaphore `cs_rsem` (`GetchPc`,
`ConInputPc`), and either may make the next step (`ConStep`). A `P` that has to wait is no step.
-/

namespace PDS.Dev
open Ring

/-- C `CONSOLE_INPUT_BUFFER_SIZE`. -/
def consoleInputBufferSize : Nat := 32

/-- Where the reader is. -/
inductive GetchPc where
  | out
  /-- after `P(cs_rsem)`; before the character is read -/
  | read
  /-- before the tail is moved on -/
  | advance (ret : Nat)
deriving DecidableEq

/-- The reader is between `P(cs_rsem)` and the update of the tail. -/
def GetchPc.between : GetchPc → Bool
  | out => false
  | _ => true

/-- Where the interrupt handler is. -/
inductive ConInputPc where
  | out
  /-- before `nexthead` is compared with the tail -/
  | test (ch nexthead : Nat)
  /-- before the character is stored -/
  | store (ch nexthead : Nat)
  /-- before the head is moved on -/
  | advance (nexthead : Nat)
  /-- before `V(cs_rsem)` -/
  | post
deriving DecidableEq

/-- The head has been moved on, and `V(cs_rsem)` is to come. -/
def ConInputPc.posting : ConInputPc → Bool
  | post => true
  | _ => false

/-- The console (C `struct con_softc`), with the characters that have been accepted, dropped and returned so far. -/
structure Con where
  rsem : Nat
  gotchars : Nat → Nat
  gotcharsHead : Nat
  gotcharsTail : Nat
  reader : GetchPc
  handler : ConInputPc
  accepted : List Nat
  dropped : List Nat
  returned : List Nat

/-- The number of unread characters. -/
def Con.unread (s : Con) : Nat := Ring.unread consoleInputBufferSize s.gotcharsHead s.gotcharsTail

/-- One step of the reader, or of the interrupt handler. -/
inductive ConStep : Con → Con → Prop where
  /-- `P(cs_rsem)` -/
  | p {s} : s.reader = .out → 0 < s.rsem → ConStep s { s with rsem := s.rsem - 1, reader := .read }
  /-- `ret = cs->cs_gotchars[cs->cs_gotchars_tail]` -/
  | read {s} : s.reader = .read → ConStep s { s with reader := .advance (s.gotchars s.gotcharsTail) }
  /-- the tail is moved on, and the character is returned -/
  | getch {s ret} : s.reader = .advance ret →
    ConStep s { s with
      reader := .out, gotcharsTail := (s.gotcharsTail + 1) % consoleInputBufferSize, returned := s.returned ++ [ret] }
  /-- `con_input` is called, and computes `nexthead` -/
  | input {s ch} : s.handler = .out →
    ConStep s { s with handler := .test ch ((s.gotcharsHead + 1) % consoleInputBufferSize) }
  /-- overflow; drop character -/
  | drop {s ch nexthead} : s.handler = .test ch nexthead → nexthead = s.gotcharsTail →
    ConStep s { s with handler := .out, dropped := s.dropped ++ [ch] }
  /-- the character is accepted; it is kept as an `unsigned char` -/
  | accept {s ch nexthead} : s.handler = .test ch nexthead → nexthead ≠ s.gotcharsTail →
    ConStep s { s with handler := .store ch nexthead, accepted := s.accepted ++ [ch % 2 ^ 8] }
  /-- `cs->cs_gotchars[cs->cs_gotchars_head] = ch` -/
  | store {s ch nexthead} : s.handler = .store ch nexthead →
    ConStep s { s with
      handler := .advance nexthead, gotchars := Function.update s.gotchars s.gotcharsHead (ch % 2 ^ 8) }
  /-- `cs->cs_gotchars_head = nexthead` -/
  | advance {s nexthead} : s.handler = .advance nexthead →
    ConStep s { s with handler := .post, gotcharsHead := nexthead }
  /-- `V(cs_rsem)` -/
  | v {s} : s.handler = .post → ConStep s { s with handler := .out, rsem := s.rsem + 1 }

/-- The console after `con_init`. -/
def conInit (gotchars : Nat → Nat) : Con := ⟨0, gotchars, 0, 0, .out, .out, [], [], []⟩

/-- The states of the runs. -/
inductive ConReach : Con → Prop where
  | init {gotchars} : ConReach (conInit gotchars)
  | step {s s'} : ConReach s → ConStep s s' → ConReach s'

/-- What holds while the interrupt handler is at a place, when `h` characters are behind the head and `t` behind the
tail. -/
def Con.Handler (s : Con) (t h : Nat) : ConInputPc → Prop
  | .out => s.accepted.length = h
  | .test _ nexthead => s.accepted.length = h ∧ nexthead = (h + 1) % consoleInputBufferSize
  | .store ch nexthead => s.accepted.length = h + 1 ∧ s.accepted[h]? = some (ch % 2 ^ 8) ∧
      nexthead = (h + 1) % consoleInputBufferSize ∧ h + 1 < t + consoleInputBufferSize
  | .advance nexthead => s.accepted.length = h + 1 ∧ s.accepted[h]? = some (s.gotchars s.gotcharsHead) ∧
      nexthead = (h + 1) % consoleInputBufferSize ∧ h + 1 < t + consoleInputBufferSize
  | .post => s.accepted.length = h

/-- What holds while the reader is at a place, when `t` characters are behind the tail. -/
def Con.Reader (s : Con) (t : Nat) : GetchPc → Prop
  | .advance ret => s.accepted[t]? = some ret
  | _ => True

/-- The invariant of the runs, when `h` characters are behind the head and `t` behind the tail. -/
structure Con.Inv (s : Con) (t h : Nat) : Prop where
  head : s.gotcharsHead = h % consoleInputBufferSize
  tail : s.gotcharsTail = t % consoleInputBufferSize
  le : t ≤ h
  lt : h < t + consoleInputBufferSize
  returned : s.returned = s.accepted.take t
  window : Window consoleInputBufferSize s.gotchars s.accepted t h
  count : s.rsem + s.reader.between.toNat + s.handler.posting.toNat = h - t
  handler : s.Handler t h s.handler
  reader : s.Reader t s.reader

section

variable {s s' : Con} {t h : Nat}

/-- How many characters are unread. -/
lemma Con.Inv.unread (inv : s.Inv t h) : s.unread = h - t := by
  rw [Con.unread, inv.head, inv.tail]
  exact unread_eq inv.le inv.lt

/-- The reader is not past the head. -/
lemma Con.Inv.unread_pos (inv : s.Inv t h) (between : s.reader.between = true) : t < h := by
  have count := inv.count
  rw [between, Bool.toNat_true] at count
  omega

/-- Nothing is unread at the start. -/
lemma Con.Inv.init (gotchars : Nat → Nat) : (conInit gotchars).Inv 0 0 where
  head := rfl
  tail := rfl
  le := le_rfl
  lt := by decide
  returned := rfl
  window := Window.empty
  count := rfl
  handler := rfl
  reader := trivial

/-- The invariant holds after each step. -/
lemma Con.Inv.step (inv : s.Inv t h) (step : ConStep s s') : ∃ t' h', s'.Inv t' h' := by
  cases step with
  | p out pos =>
    have count := inv.count
    rw [out] at count
    refine ⟨t, h, { inv with count := ?_, handler := inv.handler, reader := trivial }⟩
    change s.rsem - 1 + 1 + _ = _
    rw [Nat.sub_add_cancel pos]
    exact count
  | read read =>
    have count := inv.count
    rw [read] at count
    have lt := inv.unread_pos (congrArg GetchPc.between read)
    refine ⟨t, h, { inv with count := count, handler := inv.handler, reader := ?_ }⟩
    exact (inv.window t le_rfl lt).trans (congrArg (fun k => some (s.gotchars k)) inv.tail.symm)
  | @getch ret advance =>
    have count := inv.count
    have lt := inv.unread_pos (congrArg GetchPc.between advance)
    have entry := inv.reader
    rw [advance] at count entry
    have room := inv.lt
    refine ⟨t + 1, h, { inv with
      tail := ?_, le := lt, lt := by omega, returned := ?_, window := inv.window.pop, count := ?_, handler := ?_,
      reader := trivial }⟩
    · change (s.gotcharsTail + 1) % _ = _
      rw [inv.tail, Ring.next]
    · change s.returned ++ [ret] = s.accepted.take (t + 1)
      rw [List.take_add_one, ← inv.returned, entry]
      rfl
    · change s.rsem + 1 + s.handler.posting.toNat = h - t at count
      change s.rsem + 0 + s.handler.posting.toNat = h - (t + 1)
      omega
    · have handler := inv.handler
      change Handler _ (t + 1) h s.handler
      cases pc : s.handler with
      | out =>
        rw [pc] at handler
        exact handler
      | test ch nexthead =>
        rw [pc] at handler
        exact handler
      | store ch nexthead =>
        rw [pc] at handler
        obtain ⟨length, entry, next, room⟩ := handler
        exact ⟨length, entry, next, by omega⟩
      | advance nexthead =>
        rw [pc] at handler
        obtain ⟨length, entry, next, room⟩ := handler
        exact ⟨length, entry, next, by omega⟩
      | post =>
        rw [pc] at handler
        exact handler
  | @input ch out =>
    have count := inv.count
    have handler := inv.handler
    rw [out] at count handler
    refine ⟨t, h, { inv with count := count, handler := ⟨handler, ?_⟩, reader := inv.reader }⟩
    rw [inv.head, Ring.next]
  | drop test full =>
    have count := inv.count
    have handler := inv.handler
    rw [test] at count handler
    exact ⟨t, h, { inv with count := count, handler := handler.1, reader := inv.reader }⟩
  | @accept ch nexthead test room =>
    have count := inv.count
    have handler := inv.handler
    rw [test] at count handler
    obtain ⟨length, next⟩ := handler
    have free : h + 1 ≠ t + consoleInputBufferSize := by
      intro e
      rw [next, inv.tail] at room
      exact room ((full_iff inv.le inv.lt).2 e)
    have lt := inv.lt
    refine ⟨t, h, { inv with
      returned := ?_, window := inv.window.append, count := count, handler := ⟨?_, ?_, next, by omega⟩, reader := ?_ }⟩
    · change s.returned = (s.accepted ++ _).take t
      rw [inv.returned, List.take_append_of_le_length (length ▸ inv.le)]
    · change (s.accepted ++ _).length = _
      rw [List.length_append, length]
      rfl
    · change (s.accepted ++ _)[h]? = _
      rw [← length, List.getElem?_concat_length]
    · have reader := inv.reader
      change Reader _ t s.reader
      cases pc : s.reader with
      | out => trivial
      | read => trivial
      | advance ret =>
        rw [pc] at reader
        change (s.accepted ++ _)[t]? = some ret
        rw [List.getElem?_append_left (List.getElem?_eq_some_iff.1 reader).1]
        exact reader
  | @store ch nexthead store =>
    have count := inv.count
    have handler := inv.handler
    rw [store] at count handler
    obtain ⟨length, entry, next, room⟩ := handler
    refine ⟨t, h, { inv with window := ?_, count := count, handler := ⟨length, ?_, next, room⟩, reader := inv.reader }⟩
    · change Window _ (Function.update s.gotchars s.gotcharsHead _) _ t h
      rw [inv.head]
      exact inv.window.update inv.lt
    · change _ = some (Function.update s.gotchars s.gotcharsHead _ s.gotcharsHead)
      rw [Function.update_self]
      exact entry
  | @advance nexthead advance =>
    have count := inv.count
    have handler := inv.handler
    rw [advance] at count handler
    obtain ⟨length, entry, next, room⟩ := handler
    rw [inv.head] at entry
    have le := inv.le
    refine ⟨t, h + 1, { inv with
      head := next, le := by omega, lt := room, window := inv.window.push entry, count := ?_, handler := length,
      reader := inv.reader }⟩
    change s.rsem + s.reader.between.toNat + 0 = h - t at count
    change s.rsem + s.reader.between.toNat + 1 = h + 1 - t
    omega
  | v post =>
    have count := inv.count
    have handler := inv.handler
    rw [post] at count handler
    refine ⟨t, h, { inv with count := ?_, handler := handler, reader := inv.reader }⟩
    change s.rsem + s.reader.between.toNat + 1 = h - t at count
    change s.rsem + 1 + s.reader.between.toNat + 0 = h - t
    omega

/-- The invariant holds in every state that is reached. -/
lemma ConReach.inv (reach : ConReach s) : ∃ t h, s.Inv t h := by
  induction reach with
  | init => exact ⟨0, 0, .init _⟩
  | step _ step ih =>
    obtain ⟨t, h, inv⟩ := ih
    exact inv.step step

/-- A step changes no slot that is in use. -/
lemma Con.Inv.kept (inv : s.Inv t h) (step : ConStep s s') {k : Nat} (lt : k < h - t) :
    s'.gotchars ((t + k) % consoleInputBufferSize) = s.gotchars ((t + k) % consoleInputBufferSize) := by
  cases step with
  | @store ch nexthead store =>
    have room := inv.lt
    have ne : h % consoleInputBufferSize ≠ (t + k) % consoleInputBufferSize := slot_ne (by omega) (by omega)
    rw [← inv.head] at ne
    exact Function.update_of_ne ne.symm ..
  | _ => rfl

/-- A character is dropped only when the ring is full. -/
lemma Con.Inv.full (inv : s.Inv t h) (step : ConStep s s') (drops : s'.dropped ≠ s.dropped) :
    h - t = consoleInputBufferSize - 1 := by
  cases step with
  | @drop ch nexthead test full =>
    have handler := inv.handler
    rw [test] at handler
    rw [handler.2, inv.tail] at full
    have last := (full_iff inv.le inv.lt).1 full
    omega
  | _ => exact absurd rfl drops

/-- In every run, `getch` returns the characters that have been accepted, in their order; the next step overwrites no
unread character, and drops one only when the ring is full; and `cs_rsem` counts the unread characters, but for the one
that the reader is at, and, while the interrupt handler is between the head and `V`, the one for which `V` is to come. -/
theorem con_input_ring (reach : ConReach s) :
    s.returned <+: s.accepted ∧
    (∀ s', ConStep s s' → ∀ k < s.unread,
      s'.gotchars ((s.gotcharsTail + k) % consoleInputBufferSize) =
        s.gotchars ((s.gotcharsTail + k) % consoleInputBufferSize)) ∧
    (∀ s', ConStep s s' → s'.dropped ≠ s.dropped → s.unread = consoleInputBufferSize - 1) ∧
    (s.handler ≠ .post → s.rsem + s.reader.between.toNat = s.unread) ∧
    (s.handler = .post → s.rsem + s.reader.between.toNat + 1 = s.unread) := by
  obtain ⟨t, h, inv⟩ := reach.inv
  have count := inv.count
  refine ⟨?_, ?_, ?_, ?_, ?_⟩
  · rw [inv.returned]
    exact List.take_prefix ..
  · intro s' step k lt
    rw [inv.unread] at lt
    rw [inv.tail, Nat.mod_add_mod]
    exact inv.kept step lt
  · intro s' step drops
    rw [inv.unread]
    exact inv.full step drops
  · intro other
    rw [inv.unread, ← count]
    cases pc : s.handler with
    | post => exact absurd pc other
    | _ => rfl
  · intro post
    rw [post] at count
    rw [inv.unread, ← count]
    rfl

end

/-- Two characters come in, and one is returned. -/
theorem con_input_ring_two : ∃ s : Con, s.accepted = [104, 105] ∧ s.returned = [104] ∧ s.rsem = 0 ∧ s.unread = 1 ∧
    (s.handler = .post → s.rsem + s.reader.between.toNat + 1 = s.unread) := by
  have r0 : ConReach (conInit fun _ => 0) := .init
  have r1 := r0.step (@ConStep.input _ 104 rfl)
  have r2 := r1.step (.accept rfl (by decide))
  have r3 := r2.step (.store rfl)
  have r4 := r3.step (.advance rfl)
  have r5 := r4.step (.v rfl)
  have r6 := r5.step (.p rfl (by decide))
  have r7 := r6.step (@ConStep.input _ 105 rfl)
  have r8 := r7.step (.read rfl)
  have r9 := r8.step (.accept rfl (by decide))
  have r10 := r9.step (.store rfl)
  have r11 := r10.step (.getch rfl)
  have r12 := r11.step (.advance rfl)
  exact ⟨_, rfl, rfl, rfl, rfl, (con_input_ring r12).2.2.2.2⟩

end PDS.Dev
