import Mathlib.Tactic

/-!
# Commands with error codes

The commands of a kernel: a command changes a state and returns a value or an error code, or it stops the
machine. An error keeps the state it is raised in, as the functions of a kernel do which return an error code
after they have changed something.

`Prog.wp m Q E s` is the weakest precondition for total correctness: from `s` the command does not stop the
machine, `Q` holds of the value it returns and `E` of its error. `Prog.wlp` is the one for partial correctness, which
allows the command to stop the machine.
-/

/-- A command on the states `σ` with values `α`, error codes `ε` and ways to stop the machine `η`. -/
def Prog (η ε σ α : Type) : Type := σ → Except η (Except ε α × σ)

namespace Prog

variable {η ε σ τ α β : Type}

/-- Goes on with `f` unless there is an error. -/
def andThen (m : Prog η ε σ α) (f : α → Prog η ε σ β) : Prog η ε σ β := fun s =>
  match m s with
  | .error h => .error h
  | .ok (.error e, s) => .ok (.error e, s)
  | .ok (.ok a, s) => f a s

instance : Monad (Prog η ε σ) where
  pure a := fun s => .ok (.ok a, s)
  bind := andThen

/-- Returns an error code. -/
def fail (e : ε) : Prog η ε σ α := fun s => .ok (.error e, s)

/-- Stops the machine. -/
def halt (h : η) : Prog η ε σ α := fun _ => .error h

/-- Stops the machine unless `c` holds. -/
def require (c : Prop) [Decidable c] (h : η) : Prog η ε σ Unit := if c then pure () else halt h

/-- A command that is run on a condition. -/
def when (c : Prop) [Decidable c] (m : Prog η ε σ Unit) : Prog η ε σ Unit := if c then m else pure ()

/-- The state. -/
def get : Prog η ε σ σ := fun s => .ok (.ok s, s)

/-- Changes the state. -/
def modify (f : σ → σ) : Prog η ε σ Unit := fun s => .ok (.ok (), f s)

/-- Hands an error code over as a value. -/
def attempt (m : Prog η ε σ α) : Prog η ε σ (Except ε α) := fun s =>
  match m s with
  | .error h => .error h
  | .ok (r, s) => .ok (.ok r, s)

/-- Returns a result as it is. -/
def give : Except ε α → Prog η ε σ α
  | .error e => fail e
  | .ok a => pure a

/-- Runs a command, then another one whether or not there was an error. -/
def andAlways (m : Prog η ε σ α) (after : Prog η ε σ Unit) : Prog η ε σ α := do
  let r ← attempt m
  after
  give r

/-- A command on one component of the state. -/
def onFst (m : Prog η ε σ α) : Prog η ε (σ × τ) α := fun s =>
  match m s.1 with
  | .error h => .error h
  | .ok (r, s₁) => .ok (r, (s₁, s.2))

/-- How a command ends, without the state. -/
def outcome (m : Prog η ε σ α) (s : σ) : Except η (Except ε α) := (m s).map Prod.fst

/-- The weakest precondition for total correctness. -/
def wp (m : Prog η ε σ α) (Q : α → σ → Prop) (E : ε → σ → Prop) (s : σ) : Prop :=
  match m s with
  | .error _ => False
  | .ok (.error e, s) => E e s
  | .ok (.ok a, s) => Q a s

section

variable {m : Prog η ε σ α} {f : α → Prog η ε σ β} {Q Q' : α → σ → Prop} {E E' : ε → σ → Prop} {s : σ}

/-- Rule for `pure`. -/
lemma wp_pure_iff {a : α} : wp (pure a : Prog η ε σ α) Q E s ↔ Q a s := Iff.rfl

/-- Rule for `get`. -/
lemma wp_get_iff {Q : σ → σ → Prop} : wp (get : Prog η ε σ σ) Q E s ↔ Q s s := Iff.rfl

/-- Rule for `modify`. -/
lemma wp_modify_iff {g : σ → σ} {Q : Unit → σ → Prop} : wp (modify g : Prog η ε σ Unit) Q E s ↔ Q () (g s) :=
  Iff.rfl

/-- What holds after a command that returns. -/
lemma wp_iff : wp m Q E s ↔ ∃ r s', m s = .ok (r, s') ∧
    (∀ a, r = .ok a → Q a s') ∧ (∀ e, r = .error e → E e s') := by
  rw [wp]
  cases h : m s with
  | error => simp
  | ok r =>
    obtain ⟨r, s'⟩ := r
    cases r with
    | error e => simp
    | ok a => simp

/-- Rule for a sequence. -/
lemma wp_andThen_iff {Q : β → σ → Prop} :
    wp (m >>= f) Q E s ↔ wp m (fun a s => wp (f a) Q E s) E s := by
  show wp (andThen m f) Q E s ↔ _
  rw [wp, wp, andThen]
  cases m s with
  | error => rfl
  | ok r =>
    obtain ⟨r, s'⟩ := r
    cases r with
    | error e => rfl
    | ok a => rfl

/-- The rule of consequence. -/
lemma wp.mono (h : wp m Q E s) (hQ : ∀ a s, Q a s → Q' a s) (hE : ∀ e s, E e s → E' e s) : wp m Q' E' s := by
  rw [wp_iff] at h ⊢
  obtain ⟨r, s', run, ok, err⟩ := h
  exact ⟨r, s', run, fun a e => hQ a s' (ok a e), fun a e => hE a s' (err a e)⟩

/-- The rule for a sequence. -/
lemma wp.andThen {R : β → σ → Prop} (h : wp m Q E' s) (hQ : ∀ a s, Q a s → wp (f a) R E s)
    (hE : ∀ e s, E' e s → E e s) : wp (m >>= f) R E s :=
  wp_andThen_iff.2 (h.mono hQ hE)

/-- Rule for `require`, where the condition holds. -/
lemma wp.require {c : Prop} [Decidable c] {h : η} {Q : Unit → σ → Prop} (hc : c) (hQ : Q () s) :
    wp (require c h : Prog η ε σ Unit) Q E s := by
  rw [Prog.require, if_pos hc]
  exact hQ

/-- Rule for `attempt`: both outcomes are values. -/
lemma wp_attempt_iff {Q : Except ε α → σ → Prop} :
    wp (attempt m) Q E s ↔ wp m (fun a s => Q (.ok a) s) (fun e s => Q (.error e) s) s := by
  rw [wp, wp, attempt]
  cases m s with
  | error => rfl
  | ok r =>
    obtain ⟨r, s'⟩ := r
    cases r with
    | error e => rfl
    | ok a => rfl

/-- Rule for a program on the first component of the state. -/
lemma wp_onFst_iff {Q : α → σ × τ → Prop} {E : ε → σ × τ → Prop} {s : σ × τ} :
    wp (onFst m : Prog η ε (σ × τ) α) Q E s ↔
      wp m (fun a s₁ => Q a (s₁, s.2)) (fun e s₁ => E e (s₁, s.2)) s.1 := by
  rw [wp, wp, onFst]
  cases m s.1 with
  | error => rfl
  | ok r =>
    obtain ⟨r, s'⟩ := r
    cases r with
    | error e => rfl
    | ok a => rfl

/-- A command whose run is known. -/
lemma wp_of_run {a : α} {t : σ} (run : m s = .ok (.ok a, t)) (h : Q a t) : wp m Q E s := by
  rw [wp, run]
  exact h

/-- The run of a command whose outcome is known. -/
lemma run_of_wp {a : α} {s' : σ} (h : wp m (fun b t => b = a ∧ t = s') (fun _ _ => False) s) :
    m s = .ok (.ok a, s') := by
  obtain ⟨r, t, run, ok, err⟩ := wp_iff.1 h
  cases r with
  | error e => exact (err e rfl).elim
  | ok b =>
    obtain ⟨rfl, rfl⟩ := ok b rfl
    exact run

/-- A run that returned is one that the precondition speaks about. -/
lemma wp.of_ok (h : wp m Q E s) {a : α} {s' : σ} (run : m s = .ok (.ok a, s')) : Q a s' := by
  rw [wp, run] at h
  exact h

/-- What holds after a command that returned, with a value or with an error. -/
lemma wp.of_return (h : wp m Q E s) {r : Except ε α} {s' : σ} (run : m s = .ok (r, s')) {P : Prop}
    (hQ : ∀ a, Q a s' → P) (hE : ∀ e, E e s' → P) : P := by
  rw [wp, run] at h
  cases r with
  | error e => exact hE e h
  | ok a => exact hQ a h

/-- What holds after an error that a run reports. -/
lemma wp.of_error (h : wp m Q E s) {e : ε} {s' : σ} (run : m s = .ok (.error e, s')) : E e s' := by
  rw [wp, run] at h
  exact h

/-- A sequence goes on from the value and the state of its first part. -/
lemma andThen_of_run {a : α} {t : σ} (run : m s = .ok (.ok a, t)) : (m >>= f) s = f a t := by
  show andThen m f s = f a t
  rw [andThen, run]

/-- A sequence that begins with `pure` is its second part. -/
lemma pure_andThen (a : α) (f : α → Prog η ε σ β) : ((pure a : Prog η ε σ α) >>= f) = f a := rfl

/-- A sequence that begins with `modify` is its second part in the new state. -/
lemma modify_andThen (g : σ → σ) (f : Unit → Prog η ε σ β) (s : σ) :
    ((modify g : Prog η ε σ Unit) >>= f) s = f () (g s) := rfl

/-- A sequence that begins with `get` is its second part for the state. -/
lemma get_andThen (f : σ → Prog η ε σ β) (s : σ) : ((get : Prog η ε σ σ) >>= f) s = f s s := rfl

/-- An outcome is that of a run. -/
lemma run_of_outcome {r : Except ε α} (h : outcome m s = .ok r) : ∃ s', m s = .ok (r, s') := by
  rw [outcome] at h
  cases run : m s with
  | error x =>
    rw [run] at h
    cases h
  | ok x =>
    obtain ⟨r', s'⟩ := x
    rw [run] at h
    cases h
    exact ⟨s', rfl⟩

/-- A program whose outcome is a stop stops. -/
lemma halt_of_outcome {x : η} (h : outcome m s = .error x) : m s = .error x := by
  rw [outcome] at h
  cases run : m s with
  | error y =>
    rw [run] at h
    cases h
    rfl
  | ok y =>
    rw [run] at h
    cases h

/-- `attempt` makes the result of a run a value. -/
lemma attempt_of_run {r : Except ε α} {s' : σ} (run : m s = .ok (r, s')) : attempt m s = .ok (.ok r, s') := by
  rw [attempt, run]

/-- `attempt` does not catch a stop. -/
lemma attempt_of_halt {h : η} (run : m s = .error h) : attempt m s = .error h := by
  rw [attempt, run]

/-- `require` stops where the condition fails. -/
lemma require_of_not {c : Prop} [Decidable c] {h : η} (no : ¬ c) : (require c h : Prog η ε σ Unit) s = .error h := by
  rw [require, if_neg no]
  rfl

/-- A check that does not stop the machine changes nothing. -/
lemma ok_of_require {c : Prop} [Decidable c] {h : η} {a : Unit} {s' : σ}
    (run : (require c h : Prog η ε σ Unit) s = .ok (.ok a, s')) : c ∧ s = s' := by
  rw [require] at run
  split_ifs at run with hc
  · cases run
    exact ⟨hc, rfl⟩
  · cases run

/-- The condition holds where `require` returns. -/
lemma of_require {c : Prop} [Decidable c] {h : η} {a : Unit} {s' : σ}
    (run : (require c h : Prog η ε σ Unit) s = .ok (.ok a, s')) : c := (ok_of_require run).1

/-- A sequence ends with the error of its first part. -/
lemma andThen_of_error {e : ε} {t : σ} (run : m s = .ok (.error e, t)) : (m >>= f) s = .ok (.error e, t) := by
  show andThen m f s = .ok (.error e, t)
  rw [andThen, run]

/-- A sequence stops where its first part does. -/
lemma andThen_of_halt {h : η} (run : m s = .error h) : (m >>= f) s = .error h := by
  show andThen m f s = .error h
  rw [andThen, run]

/-- A sequence stops in its first command or in its second. -/
lemma halt_of_andThen {h : η} (run : (m >>= f) s = .error h) :
    m s = .error h ∨ ∃ a t, m s = .ok (.ok a, t) ∧ f a t = .error h := by
  have run : andThen m f s = .error h := run
  rw [andThen] at run
  cases first : m s with
  | error x =>
    rw [first] at run
    cases run
    exact .inl rfl
  | ok r =>
    obtain ⟨r, t⟩ := r
    rw [first] at run
    cases r with
    | error e => cases run
    | ok a => exact .inr ⟨a, t, rfl, run⟩

/-- Inversion for `pure`. -/
lemma ok_of_pure {a b : α} {s' : σ} (run : (pure a : Prog η ε σ α) s = .ok (.ok b, s')) : b = a ∧ s' = s := by
  cases run
  exact ⟨rfl, rfl⟩

/-- A sequence that returns a value. -/
lemma ok_of_andThen {b : β} {s' : σ} (run : (m >>= f) s = .ok (.ok b, s')) :
    ∃ a t, m s = .ok (.ok a, t) ∧ f a t = .ok (.ok b, s') := by
  have run : andThen m f s = .ok (.ok b, s') := run
  rw [andThen] at run
  cases first : m s with
  | error x =>
    rw [first] at run
    cases run
  | ok r =>
    obtain ⟨r, t⟩ := r
    rw [first] at run
    cases r with
    | error e => cases run
    | ok a => exact ⟨a, t, rfl, run⟩

end

/-- The weakest precondition for partial correctness. -/
def wlp (m : Prog η ε σ α) (Q : α → σ → Prop) (E : ε → σ → Prop) (s : σ) : Prop :=
  match m s with
  | .error _ => True
  | .ok (.error e, s) => E e s
  | .ok (.ok a, s) => Q a s

section

variable {m : Prog η ε σ α} {f : α → Prog η ε σ β} {Q Q' : α → σ → Prop} {E E' : ε → σ → Prop} {s : σ}

/-- Partial rule for `pure`. -/
lemma wlp_pure_iff {a : α} : wlp (pure a : Prog η ε σ α) Q E s ↔ Q a s := Iff.rfl

/-- Partial rule for `fail`. -/
lemma wlp_fail_iff {e : ε} : wlp (fail e : Prog η ε σ α) Q E s ↔ E e s := Iff.rfl

/-- Partial rule for `halt`: nothing is promised about a stop. -/
lemma wlp_halt {h : η} : wlp (halt h : Prog η ε σ α) Q E s := trivial

/-- Partial rule for `get`. -/
lemma wlp_get_iff {Q : σ → σ → Prop} : wlp (get : Prog η ε σ σ) Q E s ↔ Q s s := Iff.rfl

/-- Partial rule for `modify`. -/
lemma wlp_modify_iff {g : σ → σ} {Q : Unit → σ → Prop} : wlp (modify g : Prog η ε σ Unit) Q E s ↔ Q () (g s) :=
  Iff.rfl

/-- What holds of a run that returned. -/
lemma wlp_iff : wlp m Q E s ↔ ∀ r s', m s = .ok (r, s') → (∀ a, r = .ok a → Q a s') ∧ (∀ e, r = .error e → E e s') := by
  rw [wlp]
  cases h : m s with
  | error => simp
  | ok r =>
    obtain ⟨r, s'⟩ := r
    cases r with
    | error e => simp
    | ok a => simp

/-- Partial rule for a sequence. -/
lemma wlp_andThen_iff {Q : β → σ → Prop} :
    wlp (m >>= f) Q E s ↔ wlp m (fun a s => wlp (f a) Q E s) E s := by
  show wlp (andThen m f) Q E s ↔ _
  rw [wlp, wlp, andThen]
  cases m s with
  | error => rfl
  | ok r =>
    obtain ⟨r, s'⟩ := r
    cases r with
    | error e => rfl
    | ok a => rfl

/-- The rule of consequence. -/
lemma wlp.mono (h : wlp m Q E s) (hQ : ∀ a s, Q a s → Q' a s) (hE : ∀ e s, E e s → E' e s) : wlp m Q' E' s := by
  rw [wlp_iff] at h ⊢
  intro r s' run
  obtain ⟨ok, err⟩ := h r s' run
  exact ⟨fun a e => hQ a s' (ok a e), fun a e => hE a s' (err a e)⟩

/-- The rule for a sequence. -/
lemma wlp.andThen {R : β → σ → Prop} (h : wlp m Q E' s) (hQ : ∀ a s, Q a s → wlp (f a) R E s)
    (hE : ∀ e s, E' e s → E e s) : wlp (m >>= f) R E s :=
  wlp_andThen_iff.2 (h.mono hQ hE)

/-- Partial rule for `require`: the condition may be assumed. -/
lemma wlp.require {c : Prop} [Decidable c] {h : η} {Q : Unit → σ → Prop} (hQ : c → Q () s) :
    wlp (require c h : Prog η ε σ Unit) Q E s := by
  rw [Prog.require]
  split
  next hc => exact hQ hc
  next => trivial

/-- Partial rule for `attempt`. -/
lemma wlp_attempt_iff {Q : Except ε α → σ → Prop} :
    wlp (attempt m) Q E s ↔ wlp m (fun a s => Q (.ok a) s) (fun e s => Q (.error e) s) s := by
  rw [wlp, wlp, attempt]
  cases m s with
  | error => rfl
  | ok r =>
    obtain ⟨r, s'⟩ := r
    cases r with
    | error e => rfl
    | ok a => rfl

/-- Partial rule for a program on the first component of the state. -/
lemma wlp_onFst_iff {Q : α → σ × τ → Prop} {E : ε → σ × τ → Prop} {s : σ × τ} :
    wlp (onFst m : Prog η ε (σ × τ) α) Q E s ↔
      wlp m (fun a s₁ => Q a (s₁, s.2)) (fun e s₁ => E e (s₁, s.2)) s.1 := by
  rw [wlp, wlp, onFst]
  cases m s.1 with
  | error => rfl
  | ok r =>
    obtain ⟨r, s'⟩ := r
    cases r with
    | error e => rfl
    | ok a => rfl

/-- A command whose run is known. -/
lemma wlp_of_run {a : α} {t : σ} (run : m s = .ok (.ok a, t)) (h : Q a t) : wlp m Q E s := by
  rw [wlp, run]
  exact h

/-- A run that returned is one that the precondition speaks about. -/
lemma wlp.of_ok (h : wlp m Q E s) {a : α} {s' : σ} (run : m s = .ok (.ok a, s')) : Q a s' := by
  rw [wlp, run] at h
  exact h

/-- What holds after an error that a run reports, by the partial rules. -/
lemma wlp.of_error (h : wlp m Q E s) {e : ε} {s' : σ} (run : m s = .ok (.error e, s')) : E e s' := by
  rw [wlp, run] at h
  exact h

/-- A total rule is a partial one. -/
lemma wp.wlp (h : wp m Q E s) : Prog.wlp m Q E s := by
  rw [wlp_iff]
  intro r t run
  refine ⟨?_, ?_⟩
  · rintro a rfl
    exact h.of_ok run
  · rintro e rfl
    exact h.of_error run

/-- What is known of a command in two ways. -/
lemma wp.and_wlp (h : wp m Q E s) (h' : Prog.wlp m Q' E' s) :
    wp m (fun a t => Q a t ∧ Q' a t) (fun e t => E e t ∧ E' e t) s := by
  rw [wp_iff] at h ⊢
  obtain ⟨r, t, run, ok, err⟩ := h
  obtain ⟨ok', err'⟩ := wlp_iff.1 h' r t run
  exact ⟨r, t, run, fun a same => ⟨ok a same, ok' a same⟩, fun e same => ⟨err e same, err' e same⟩⟩

/-- The rule for a command that is followed by another one in any case. -/
lemma wlp.always {after : Prog η ε σ Unit} {Q' : α → σ → Prop} (h : wlp m Q E s)
    (hQ : ∀ a t, Q a t → wlp after (fun _ u => Q' a u) E' t) (hE : ∀ e t, E e t → wlp after (fun _ u => E' e u) E' t) :
    wlp (andAlways m after) Q' E' s := by
  refine wlp_andThen_iff.2 (wlp_attempt_iff.2 (h.mono ?_ ?_))
  · intro a t q
    exact wlp_andThen_iff.2 (hQ a t q)
  · intro e t q
    exact wlp_andThen_iff.2 (hE e t q)

end

/-! ## What a command leaves alone

`Keeps R P m`: when `m` returns, with a value or an error, the states before and after it are related by `R`; when it
stops the machine it does so for a reason in `P`. -/

/-- Every run of `m` that returns stays within `R`, every other one stops for a reason in `P`. -/
def Keeps (R : σ → σ → Prop) (P : η → Prop) (m : Prog η ε σ α) : Prop :=
  ∀ s, match m s with
    | .error h => P h
    | .ok (_, s') => R s s'

namespace Keeps

variable {R : σ → σ → Prop} {P : η → Prop} {m : Prog η ε σ α} {f : α → Prog η ε σ β} {s s' : σ}

/-- The states of a run that returns are related. -/
lemma of_ok (k : Keeps R P m) {r : Except ε α} (run : m s = .ok (r, s')) : R s s' := by
  have := k s
  rw [run] at this
  exact this

/-- A stop of a run is one of those allowed. -/
lemma of_halt (k : Keeps R P m) {h : η} (run : m s = .error h) : P h := by
  have := k s
  rw [run] at this
  exact this

/-- An allowed stop is kept. -/
lemma halt {h : η} (ph : P h) : Keeps R P (Prog.halt h : Prog η ε σ α) := fun _ => ph

variable (refl : ∀ s, R s s)
include refl

/-- `pure` keeps the state. -/
lemma pure (a : α) : Keeps R P (pure a : Prog η ε σ α) := fun s => refl s

/-- `fail` keeps the state. -/
lemma fail (e : ε) : Keeps R P (Prog.fail e : Prog η ε σ α) := fun s => refl s

/-- `get` keeps the state. -/
lemma get : Keeps R P (Prog.get : Prog η ε σ σ) := fun s => refl s

/-- `require` keeps the state, if its stop is allowed. -/
lemma require {c : Prop} [Decidable c] {h : η} (ph : P h) : Keeps R P (Prog.require c h : Prog η ε σ Unit) := by
  intro s
  rw [Prog.require]
  split_ifs
  · exact refl s
  · exact ph

omit refl

/-- `modify` keeps what each of its steps keeps. -/
lemma modify {g : σ → σ} (step : ∀ s, R s (g s)) : Keeps R P (Prog.modify g : Prog η ε σ Unit) := fun s => step s

/-- A branch keeps what both of its cases keep, each under its condition. -/
lemma ite {c : Prop} [Decidable c] {m' : Prog η ε σ α} (k : c → Keeps R P m) (k' : ¬ c → Keeps R P m') :
    Keeps R P (if c then m else m') := by
  split_ifs with hc
  · exact k hc
  · exact k' hc

/-- The rule for a sequence. -/
lemma bind (trans : ∀ {s t u}, R s t → R t u → R s u) (km : Keeps R P m) (kf : ∀ a, Keeps R P (f a)) :
    Keeps R P (m >>= f) := by
  intro s
  show match Prog.andThen m f s with
    | .error h => P h
    | .ok (_, s') => R s s'
  have first := km s
  rw [Prog.andThen]
  cases run : m s with
  | error h =>
    rw [run] at first
    exact first
  | ok r =>
    obtain ⟨r, t⟩ := r
    rw [run] at first
    cases r with
    | error e => exact first
    | ok a =>
      have second := kf a t
      dsimp only at second ⊢
      cases run : f a t with
      | error h =>
        rw [run] at second
        exact second
      | ok r =>
        rw [run] at second
        exact trans first second

end Keeps

/-- `Keeps` for a preorder, for which a sequence keeps what its parts keep. -/
structure Within (R : σ → σ → Prop) (P : η → Prop) (m : Prog η ε σ α) : Prop where
  keeps : Keeps R P m

namespace Within

variable {R R' : σ → σ → Prop} {P P' : η → Prop} {m m' : Prog η ε σ α} {f : α → Prog η ε σ β}

/-- A weaker relation and more stops are kept as well. -/
lemma mono (k : Within R P m) (rel : ∀ s t, R s t → R' s t) (stop : ∀ h, P h → P' h) : Within R' P' m := by
  refine ⟨fun s => ?_⟩
  cases run : m s with
  | error h => exact stop h (k.keeps.of_halt run)
  | ok r => exact rel _ _ (k.keeps.of_ok run)

/-- An allowed stop stays within the relation. -/
lemma halt {h : η} (ph : P h) : Within R P (Prog.halt h : Prog η ε σ α) := ⟨Keeps.halt ph⟩

/-- `modify` stays within the relation if each of its steps does. -/
lemma modify {g : σ → σ} (step : ∀ s, R s (g s)) : Within R P (Prog.modify g : Prog η ε σ Unit) := ⟨Keeps.modify step⟩

/-- A branch stays within the relation if both of its cases do. -/
lemma ite {c : Prop} [Decidable c] (k : c → Within R P m) (k' : ¬ c → Within R P m') :
    Within R P (if c then m else m') :=
  ⟨Keeps.ite (fun hc => (k hc).keeps) fun hc => (k' hc).keeps⟩

variable [Std.Refl R]

/-- `pure` stays within the relation. -/
lemma pure (a : α) : Within R P (pure a : Prog η ε σ α) := ⟨Keeps.pure (refl_of R) a⟩

/-- `fail` stays within the relation. -/
lemma fail (e : ε) : Within R P (Prog.fail e : Prog η ε σ α) := ⟨Keeps.fail (refl_of R) e⟩

/-- `get` stays within the relation. -/
lemma get : Within R P (Prog.get : Prog η ε σ σ) := ⟨Keeps.get (refl_of R)⟩

/-- `require` stays within the relation, if its stop is allowed. -/
lemma require {c : Prop} [Decidable c] {h : η} (ph : P h) : Within R P (Prog.require c h : Prog η ε σ Unit) :=
  ⟨Keeps.require (refl_of R) ph⟩

/-- A program that is run under a condition stays within the relation. -/
lemma when {c : Prop} [Decidable c] {m : Prog η ε σ Unit} (k : Within R P m) : Within R P (Prog.when c m) :=
  ite (fun _ => k) fun _ => pure ()

omit [Std.Refl R]

/-- The rule for a sequence. -/
lemma bind [IsTrans σ R] (km : Within R P m) (kf : ∀ a, Within R P (f a)) : Within R P (m >>= f) :=
  ⟨Keeps.bind (trans_of R) km.keeps fun a => (kf a).keeps⟩

end Within

section

variable {m : Prog η ε σ α} {f : α → Prog η ε σ β} {s t : σ} {h : η}

/-- The command does not stop the machine for the reason `h`. -/
def Avoids (h : η) (m : Prog η ε σ α) (s : σ) : Prop := m s ≠ .error h

/-- A sequence avoids a stop if its parts do, the second from wherever the first returns. -/
lemma avoids_andThen_iff : Avoids h (m >>= f) s ↔ Avoids h m s ∧ ∀ a t, m s = .ok (.ok a, t) → Avoids h (f a) t := by
  constructor
  · intro avoids
    refine ⟨fun halt => avoids (andThen_of_halt halt), ?_⟩
    intro a t run halt
    exact avoids ((andThen_of_run run).trans halt)
  · rintro ⟨first, second⟩ halt
    cases halt_of_andThen halt with
    | inl halt => exact first halt
    | inr later =>
      obtain ⟨a, t, run, halt⟩ := later
      exact second a t run halt

/-- A sequence avoids a stop if its second part does, where the first has been run. -/
lemma avoids_of_run {a : α} (run : m s = .ok (.ok a, t)) : Avoids h (m >>= f) s ↔ Avoids h (f a) t := by
  rw [Avoids, Avoids, andThen_of_run run]

/-- An error code ends a sequence. -/
lemma avoids_of_error {e : ε} (run : m s = .ok (.error e, t)) : Avoids h (m >>= f) s := by
  intro halt
  rw [andThen_of_error run] at halt
  cases halt

/-- A stop that is not allowed is avoided. -/
lemma Within.avoids {R : σ → σ → Prop} {P : η → Prop} (k : Within R P m) (no : ¬ P h) (s : σ) : Avoids h m s :=
  fun halt => no (k.keeps.of_halt halt)

end

/-! ## Commands that go on further

A command that calls itself is approximated by commands that stop for the reason `h` when the calls nest too deep. -/

/-- `m'` does what `m` does, unless `m` stops for the reason `h`. -/
def Extends (h : η) (m m' : Prog η ε σ α) : Prop := ∀ s, m s ≠ .error h → m' s = m s

namespace Extends

variable {h : η} {m m' m'' : Prog η ε σ α} {f f' : α → Prog η ε σ β} {s s' : σ}

/-- A program extends itself. -/
lemma refl (m : Prog η ε σ α) : Extends h m m := fun _ _ => rfl

/-- Extensions compose. -/
lemma trans (e : Extends h m m') (e' : Extends h m' m'') : Extends h m m'' := by
  intro s ne
  have eq := e s ne
  rw [e' s (eq ▸ ne), eq]

/-- Any program extends one that stops. -/
lemma halt : Extends h (Prog.halt h : Prog η ε σ α) m := fun _ ne => absurd rfl ne

/-- A branch is extended by extending its cases. -/
lemma ite {c : Prop} [Decidable c] {n n' : Prog η ε σ α} (e : Extends h m m') (e' : Extends h n n') :
    Extends h (if c then m else n) (if c then m' else n') := by
  split_ifs
  · exact e
  · exact e'

/-- A run that returns is a run of the extension. -/
lemma of_ok (e : Extends h m m') {r : Except ε α} (run : m s = .ok (r, s')) : m' s = .ok (r, s') := by
  have ne : m s ≠ .error h := by
    rw [run]
    nofun
  rw [e s ne, run]

/-- Where a program does not stop, its extension does not either. -/
lemma ne (e : Extends h m m') (no : m s ≠ .error h) : m' s ≠ .error h := by
  rw [e s no]
  exact no

/-- The rule for a sequence. -/
lemma bind (em : Extends h m m') (ef : ∀ a, Extends h (f a) (f' a)) : Extends h (m >>= f) (m' >>= f') := by
  intro s ne
  show Prog.andThen m' f' s = Prog.andThen m f s
  have ne : Prog.andThen m f s ≠ .error h := ne
  rw [Prog.andThen] at ne ⊢
  rw [Prog.andThen]
  cases run : m s with
  | error x =>
    rw [run] at ne
    have other : x ≠ h := fun eq => ne (by rw [eq])
    have ne : m s ≠ .error h := by
      rw [run]
      exact fun eq => other (Except.error.inj eq)
    rw [em s ne, run]
  | ok r =>
    obtain ⟨r, t⟩ := r
    rw [run] at ne
    rw [em.of_ok run]
    cases r with
    | error e => rfl
    | ok a => exact ef a t ne

end Extends

/-! ## A component that is only counted

A command with one more component of the state, which does not have a say in what the command does. -/

/-- Without the second component of its state, `m` is `m'`. -/
def Erases (m : Prog η ε (σ × τ) α) (m' : Prog η ε σ α) : Prop := ∀ s, (m s).map (fun r => (r.1, r.2.1)) = m' s.1

namespace Erases

variable {m : Prog η ε (σ × τ) α} {m' : Prog η ε σ α} {f : α → Prog η ε (σ × τ) β} {f' : α → Prog η ε σ β}

/-- `pure` is erased to itself. -/
lemma pure (a : α) : Erases (pure a : Prog η ε (σ × τ) α) (pure a) := fun _ => rfl

/-- `fail` is erased to itself. -/
lemma fail (e : ε) : Erases (Prog.fail e : Prog η ε (σ × τ) α) (Prog.fail e) := fun _ => rfl

/-- `require` is erased to itself. -/
lemma require {c : Prop} [Decidable c] {h : η} :
    Erases (Prog.require c h : Prog η ε (σ × τ) Unit) (Prog.require c h) := by
  intro s
  rw [Prog.require, Prog.require]
  split_ifs <;> rfl

/-- What is run on the first component is erased to the program itself. -/
lemma onFst (m' : Prog η ε σ α) : Erases (onFst m' : Prog η ε (σ × τ) α) m' := by
  intro s
  rw [Prog.onFst]
  cases m' s.1 <;> rfl

/-- A branch is erased case by case. -/
lemma ite {c : Prop} [Decidable c] {n : Prog η ε (σ × τ) α} {n' : Prog η ε σ α} (e : Erases m m') (e' : Erases n n') :
    Erases (if c then m else n) (if c then m' else n') := by
  split_ifs
  · exact e
  · exact e'

/-- The rule for a sequence. -/
lemma bind (em : Erases m m') (ef : ∀ a, Erases (f a) (f' a)) : Erases (m >>= f) (m' >>= f') := by
  intro s
  show (Prog.andThen m f s).map _ = Prog.andThen m' f' s.1
  rw [Prog.andThen, Prog.andThen, ← em s]
  cases m s with
  | error h => rfl
  | ok r =>
    obtain ⟨r, t⟩ := r
    cases r with
    | error e => rfl
    | ok a => exact ef a t

/-- `attempt` is erased to the same around the erased program. -/
lemma attempt (e : Erases m m') : Erases (attempt m) (attempt m') := by
  intro s
  rw [Prog.attempt, Prog.attempt, ← e s]
  cases m s <;> rfl

/-- A run with the second component. -/
lemma exists_run (e : Erases m m') {s s' : σ} {r : Except ε α} (run : m' s = .ok (r, s')) (t : τ) :
    ∃ t', m (s, t) = .ok (r, (s', t')) := by
  have eq := e (s, t)
  rw [run] at eq
  cases whole : m (s, t) with
  | error h =>
    rw [whole] at eq
    cases eq
  | ok p =>
    obtain ⟨r', s₁, t'⟩ := p
    rw [whole] at eq
    cases eq
    exact ⟨t', rfl⟩

end Erases

end Prog
