import Mathlib.Data.List.Basic
import Mathlib.Tactic

/-!
# Strings in memory

A string is characters in memory from an address on, with a terminating zero behind them. Loops over a string have fuel,
and have no result without it.
-/

namespace PDS.CString

/-- The characters of `s` are in memory from `p` on. -/
def CharsAt (m : Nat → UInt8) (p : Nat) : List UInt8 → Prop
  | [] => True
  | c :: s => m p = c ∧ CharsAt m (p + 1) s

instance decidableCharsAt (m : Nat → UInt8) : (p : Nat) → (s : List UInt8) → Decidable (CharsAt m p s)
  | _, [] => isTrue trivial
  | p, _ :: s =>
    have := decidableCharsAt m (p + 1) s
    inferInstanceAs (Decidable (_ ∧ _))

/-- The string `s` is at `p`. -/
structure StringAt (m : Nat → UInt8) (p : Nat) (s : List UInt8) : Prop where
  chars : CharsAt m p s
  stop : m (p + s.length) = 0
  solid : 0 ∉ s

/-- `while (*p && f(*p)) p++`. -/
def scan (f : UInt8 → Bool) (m : Nat → UInt8) : Nat → Nat → Option Nat
  | 0, _ => none
  | fuel + 1, p => if m p ≠ 0 ∧ f (m p) = true then scan f m fuel (p + 1) else some p

/-- The string at `p`. -/
def readString (m : Nat → UInt8) (fuel p : Nat) : Option (List UInt8) := do
  let stop ← scan (fun _ => true) m fuel p
  some ((List.range (stop - p)).map fun i => m (p + i))

variable {m m' : Nat → UInt8} {p fuel : Nat} {s t w r : List UInt8} {f : UInt8 → Bool}

/-- The characters of two strings in memory, one behind the other. -/
lemma charsAt_append : CharsAt m p (s ++ t) ↔ CharsAt m p s ∧ CharsAt m (p + s.length) t := by
  induction s generalizing p with
  | nil => exact ⟨fun h => ⟨trivial, h⟩, fun h => h.2⟩
  | cons c s ih =>
    have shift : p + 1 + s.length = p + (c :: s).length := by rw [List.length_cons]; omega
    rw [List.cons_append, CharsAt, CharsAt, ih, and_assoc, shift]

/-- The characters depend on their own bytes only. -/
lemma CharsAt.congr (h : CharsAt m p s) (same : ∀ x, p ≤ x → x < p + s.length → m' x = m x) : CharsAt m' p s := by
  induction s generalizing p with
  | nil => exact h
  | cons c s ih =>
    rw [List.length_cons] at same
    refine ⟨(same p (le_refl p) (by omega)).trans h.1, ih h.2 ?_⟩
    intro x ge lt
    exact same x (by omega) (by omega)

/-- A string is where it was when its bytes are what they were. -/
lemma StringAt.congr (h : StringAt m p s) (same : ∀ x, p ≤ x → x ≤ p + s.length → m' x = m x) : StringAt m' p s :=
  ⟨h.chars.congr fun x ge lt => same x ge lt.le, (same _ (Nat.le_add_right _ _) (le_refl _)).trans h.stop, h.solid⟩

/-- The end of a string is a string. -/
lemma StringAt.drop (h : StringAt m p (s ++ t)) : StringAt m (p + s.length) t := by
  have stop := h.stop
  rw [List.length_append, ← Nat.add_assoc] at stop
  exact ⟨(charsAt_append.1 h.chars).2, stop, fun mem => h.solid (List.mem_append_right s mem)⟩

/-- The first byte of a string is its first character. -/
lemma StringAt.head {c : UInt8} (h : StringAt m p (c :: s)) : m p = c ∧ c ≠ 0 :=
  ⟨h.chars.1, fun zero => h.solid (zero ▸ List.mem_cons_self)⟩

/-- The rest of a string begins one byte further. -/
lemma StringAt.tail {c : UInt8} (h : StringAt m p (c :: s)) : StringAt m (p + 1) s :=
  StringAt.drop (s := [c]) h

/-- A loop over a string goes as far as its condition holds. -/
lemma scan_eq (h : StringAt m p (w ++ r)) (enough : w.length < fuel) (all : ∀ c ∈ w, f c = true)
    (stop : r = [] ∨ ∃ c t, r = c :: t ∧ f c = false) : scan f m fuel p = some (p + w.length) := by
  induction w generalizing p fuel with
  | nil =>
    obtain ⟨fuel, rfl⟩ : ∃ k, fuel = k + 1 := ⟨fuel - 1, by rw [List.length_nil] at enough; omega⟩
    have ends : ¬ (m p ≠ 0 ∧ f (m p) = true) := by
      rintro ⟨ne, yes⟩
      obtain rfl | ⟨c, t, rfl, no⟩ := stop
      · exact ne h.stop
      · rw [StringAt.head h |>.1, no] at yes
        cases yes
    rw [scan, if_neg ends]
    rfl
  | cons c w ih =>
    obtain ⟨fuel, rfl⟩ : ∃ k, fuel = k + 1 := ⟨fuel - 1, by omega⟩
    obtain ⟨here, ne⟩ := StringAt.head h
    have goes : m p ≠ 0 ∧ f (m p) = true := by
      rw [here]
      exact ⟨ne, all c List.mem_cons_self⟩
    rw [List.length_cons] at enough ⊢
    rw [scan, if_pos goes, ih (StringAt.tail h) (by omega) (fun c' mem => all c' (List.mem_cons_of_mem _ mem)),
      Nat.add_assoc, Nat.add_comm 1]

/-- The bytes read one by one are the characters. -/
lemma map_charsAt (h : CharsAt m p s) : ((List.range s.length).map fun i => m (p + i)) = s := by
  induction s generalizing p with
  | nil => rfl
  | cons c s ih =>
    have shift : ((fun i => m (p + i)) ∘ Nat.succ) = fun i => m (p + 1 + i) := by
      funext i
      show m (p + (i + 1)) = m (p + 1 + i)
      rw [Nat.add_assoc, Nat.add_comm 1]
    rw [List.length_cons, List.range_succ_eq_map, List.map_cons, List.map_map, shift, ih h.2]
    exact congrArg (· :: s) h.1

/-- A string is read. -/
lemma StringAt.read (h : StringAt m p s) (enough : s.length < fuel) : readString m fuel p = some s := by
  have whole : StringAt m p (s ++ []) := by rwa [List.append_nil]
  have run : scan (fun _ => true) m fuel p = some (p + s.length) :=
    scan_eq whole enough (fun _ _ => rfl) (.inl rfl)
  rw [readString, run]
  show some ((List.range (p + s.length - p)).map fun i => m (p + i)) = some s
  rw [Nat.add_sub_cancel_left, map_charsAt h.chars]

end PDS.CString
