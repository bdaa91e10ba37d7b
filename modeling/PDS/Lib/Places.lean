import Mathlib.Tactic

/-!
# Things in places

A family of lists, one for each place, such that every live thing is in exactly one place, and once
(`Placed`). Operations move things from one place to another (`Placed.move`), bring new ones into being
(`Placed.create`) and destroy them (`Placed.destroy`).
-/

namespace Places

variable {P T : Type*}

/-- Every live thing is in exactly one place, and nothing else is anywhere. -/
structure Placed (content : P → List T) (live : T → Prop) : Prop where
  live_iff : ∀ t, live t ↔ ∃ p, t ∈ content p
  unique : ∀ {p q t}, t ∈ content p → t ∈ content q → p = q
  nodup : ∀ p, (content p).Nodup

namespace Placed

variable {content content' d : P → List T} {live : T → Prop} {p q : P} {t : T} {l : List T}

/-- What is in a place is alive. -/
lemma of_mem (h : Placed content live) (mem : t ∈ content p) : live t := (h.live_iff t).2 ⟨p, mem⟩

/-- A live thing has one place. -/
lemma exists_unique (h : Placed content live) (lv : live t) : ∃! p, t ∈ content p := by
  obtain ⟨p, mem⟩ := (h.live_iff t).1 lv
  exact ⟨p, mem, fun q mem' => h.unique mem' mem⟩

/-- Things are moved from one place to another. -/
lemma move (h : Placed content live) (ne : p ≠ q) (source : (content p).Perm (l ++ content' p))
    (target : (content' q).Perm (l ++ content q)) (other : ∀ r, r ≠ p → r ≠ q → content' r = content r) :
    Placed content' live := by
  -- where something that is now at `r` has been before
  have before : ∀ {r t}, t ∈ content' r → (t ∈ content r ∧ (t ∉ l ∨ r ≠ p)) ∨ (r = q ∧ t ∈ l) := by
    intro r t mem
    by_cases rp : r = p
    · subst rp
      refine .inl ⟨source.symm.subset (List.mem_append_right _ mem), .inl (fun h' => ?_)⟩
      exact (List.nodup_append.1 (source.nodup_iff.1 (h.nodup r))).2.2 t h' t mem rfl
    · by_cases rq : r = q
      · subst rq
        cases List.mem_append.1 (target.subset mem) with
        | inl mem => exact .inr ⟨rfl, mem⟩
        | inr mem => exact .inl ⟨mem, .inr rp⟩
      · rw [other r rp rq] at mem
        exact .inl ⟨mem, .inr rp⟩
  have moved : ∀ {t}, t ∈ l → t ∈ content p := fun mem =>
    source.symm.subset (List.mem_append_left _ mem)
  refine ⟨fun t => ?_, fun {r r' t} mem mem' => ?_, fun r => ?_⟩
  · rw [h.live_iff]
    constructor
    · intro hr
      obtain ⟨r, mem⟩ := hr
      by_cases rp : r = p
      · subst rp
        cases List.mem_append.1 (source.subset mem) with
        | inl mem => exact ⟨q, target.symm.subset (List.mem_append_left _ mem)⟩
        | inr mem => exact ⟨r, mem⟩
      · by_cases rq : r = q
        · subst rq
          exact ⟨r, target.symm.subset (List.mem_append_right _ mem)⟩
        · exact ⟨r, (other r rp rq).symm ▸ mem⟩
    · intro hr
      obtain ⟨r, mem⟩ := hr
      obtain ⟨mem, -⟩ | ⟨-, mem⟩ := before mem
      · exact ⟨r, mem⟩
      · exact ⟨p, moved mem⟩
  · obtain ⟨m, out⟩ | ⟨rfl, m⟩ := before mem
    · obtain ⟨m', out'⟩ | ⟨rfl, m'⟩ := before mem'
      · exact h.unique m m'
      · cases h.unique m (moved m')
        cases out with
        | inl out => exact absurd m' out
        | inr out => exact absurd rfl out
    · obtain ⟨m', out'⟩ | ⟨rfl, m'⟩ := before mem'
      · cases h.unique m' (moved m)
        cases out' with
        | inl out => exact absurd m out
        | inr out => exact absurd rfl out
      · rfl
  · by_cases rp : r = p
    · subst rp
      exact (source.nodup_iff.1 (h.nodup r)).of_append_right
    · by_cases rq : r = q
      · subst rq
        refine target.nodup_iff.2 (List.nodup_append.2 ⟨?_, h.nodup r, ?_⟩)
        · exact (source.nodup_iff.1 (h.nodup p)).of_append_left
        · rintro a ha b hb rfl
          exact rp (h.unique hb (moved ha))
      · rw [other r rp rq]
        exact h.nodup r

/-- A new thing comes into being. -/
lemma create (h : Placed content live) (fresh : ¬ live t) (target : (d q).Perm (t :: content q))
    (other : ∀ r, r ≠ q → d r = content r) : Placed d (fun u => u = t ∨ live u) := by
  have before : ∀ {r u}, u ∈ d r → u ∈ content r ∨ (r = q ∧ u = t) := by
    intro r u mem
    by_cases rq : r = q
    · subst rq
      cases List.mem_cons.1 (target.subset mem) with
      | inl e => exact .inr ⟨rfl, e⟩
      | inr mem => exact .inl mem
    · rw [other r rq] at mem
      exact .inl mem
  have after : ∀ {r u}, u ∈ content r → u ∈ d r := by
    intro r u mem
    by_cases rq : r = q
    · subst rq
      exact target.symm.subset (List.mem_cons_of_mem _ mem)
    · rwa [other r rq]
  refine ⟨fun u => ?_, fun {r r' u} mem mem' => ?_, fun r => ?_⟩
  · constructor
    · intro lv
      cases lv with
      | inl e => exact ⟨q, target.symm.subset (e ▸ List.mem_cons_self)⟩
      | inr lv =>
        obtain ⟨r, mem⟩ := (h.live_iff u).1 lv
        exact ⟨r, after mem⟩
    · intro hr
      obtain ⟨r, mem⟩ := hr
      obtain mem | ⟨-, e⟩ := before mem
      · exact .inr (h.of_mem mem)
      · exact .inl e
  · obtain m | ⟨rfl, rfl⟩ := before mem
    · obtain m' | ⟨rfl, rfl⟩ := before mem'
      · exact h.unique m m'
      · exact absurd (h.of_mem m) fresh
    · obtain m' | ⟨rfl, -⟩ := before mem'
      · exact absurd (h.of_mem m') fresh
      · rfl
  · by_cases rq : r = q
    · subst rq
      exact target.nodup_iff.2 (List.nodup_cons.2 ⟨fun mem => fresh (h.of_mem mem), h.nodup r⟩)
    · rw [other r rq]
      exact h.nodup r

/-- A thing is destroyed. -/
lemma destroy (h : Placed content live) (source : (content p).Perm (t :: d p))
    (other : ∀ r, r ≠ p → d r = content r) : Placed d (fun u => live u ∧ u ≠ t) := by
  have nd := List.nodup_cons.1 (source.nodup_iff.1 (h.nodup p))
  have mem_t : t ∈ content p := source.symm.subset List.mem_cons_self
  have before : ∀ {r u}, u ∈ d r → u ∈ content r ∧ u ≠ t := by
    intro r u mem
    by_cases rp : r = p
    · subst rp
      refine ⟨source.symm.subset (List.mem_cons_of_mem _ mem), ?_⟩
      rintro rfl
      exact nd.1 mem
    · rw [other r rp] at mem
      refine ⟨mem, ?_⟩
      rintro rfl
      exact rp (h.unique mem mem_t)
  refine ⟨fun u => ?_, fun {r r' u} mem mem' => h.unique (before mem).1 (before mem').1, fun r => ?_⟩
  · constructor
    · intro hu
      obtain ⟨r, mem⟩ := (h.live_iff u).1 hu.1
      refine ⟨r, ?_⟩
      by_cases rp : r = p
      · subst rp
        exact (List.mem_cons.1 (source.subset mem)).resolve_left hu.2
      · rwa [other r rp]
    · intro hr
      obtain ⟨r, mem⟩ := hr
      exact ⟨h.of_mem (before mem).1, (before mem).2⟩
  · by_cases rp : r = p
    · subst rp
      exact nd.2
    · rw [other r rp]
      exact h.nodup r

end Placed

end Places
