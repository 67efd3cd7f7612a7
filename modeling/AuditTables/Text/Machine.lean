/-!
# `AuditTables.Text.Machine`: readers that look at one symbol at a time

Every reader of this library (markup, attributes, character references, JSON,
record boundaries) decides symbol by symbol and looks back only through its
state. `Machine` is that shape: a step that may refuse, and a verdict at the end
of the input. What a reader does on a whole input is then a structural recursion
over the input, so nothing about running one needs fuel.

Main statement: `feed_append`, which says that an input can be cut anywhere. A
reader that has seen the first part carries on with the second as if it had
been handed both at once. `feed_collect` is for the readers that keep what they have
read latest first: one that adds each of some symbols to it adds all of them.

`coincide_run` is for two readers of the same input. If no symbol tells them apart, and neither does
the end, then both refuse the input or both have a result (`Coincide`).
-/

set_option autoImplicit false

namespace AuditTables.Text

/-- A reader over symbols `ι` with state `σ`, refusals `ε` and results `ο`. -/
structure Machine (ι σ ε ο : Type) where
  /-- What one symbol does to the state. -/
  step : σ → ι → Except ε σ
  /-- What the state amounts to when the input ends here. -/
  finish : σ → Except ε ο

namespace Machine

variable {ι σ ε ο : Type}

/-- The state after a list of symbols, or the first refusal. The recursion is a
tail call, so the length of the input costs no stack. -/
def feed (m : Machine ι σ ε ο) : σ → List ι → Except ε σ
  | s, [] => .ok s
  | s, x :: xs =>
    match m.step s x with
    | .error e => .error e
    | .ok next => feed m next xs

/-- The verdict on a whole input. -/
def run (m : Machine ι σ ε ο) (s : σ) (xs : List ι) : Except ε ο :=
  match m.feed s xs with
  | .error e => .error e
  | .ok last => m.finish last

@[simp] theorem feed_nil (m : Machine ι σ ε ο) (s : σ) : m.feed s [] = .ok s := rfl

theorem feed_cons (m : Machine ι σ ε ο) (s : σ) (x : ι) (xs : List ι) :
    m.feed s (x :: xs) = (m.step s x).bind (m.feed · xs) := by
  rw [feed]
  cases m.step s x <;> rfl

/-- Reading two inputs in a row is reading their concatenation. The second part
is read only if the first is not refused. -/
theorem feed_append (m : Machine ι σ ε ο) (s : σ) (xs ys : List ι) :
    m.feed s (xs ++ ys) = (m.feed s xs).bind (m.feed · ys) := by
  induction xs generalizing s with
  | nil => rfl
  | cons x xs ih =>
    rw [List.cons_append, feed_cons, feed_cons]
    cases m.step s x with
    | error e => rfl
    | ok next => exact ih next

/-- A symbol that is not refused is followed by the others. -/
theorem feed_cons_of_ok {m : Machine ι σ ε ο} {s t : σ} {x : ι} (h : m.step s x = .ok t)
    (xs : List ι) : m.feed s (x :: xs) = m.feed t xs := by
  rw [feed_cons, h]
  rfl

/-- An input that is not refused is followed by the rest. -/
theorem feed_append_of_ok {m : Machine ι σ ε ο} {s t : σ} {xs : List ι} (h : m.feed s xs = .ok t)
    (ys : List ι) : m.feed s (xs ++ ys) = m.feed t ys := by
  rw [feed_append, h]
  rfl

/-- An input that is accepted has a first symbol that is not refused. -/
theorem exists_of_feed_cons {m : Machine ι σ ε ο} {s t : σ} {x : ι} {xs : List ι}
    (h : m.feed s (x :: xs) = .ok t) : ∃ next, m.step s x = .ok next ∧ m.feed next xs = .ok t := by
  rw [feed_cons] at h
  cases hstep : m.step s x with
  | error e => rw [hstep] at h; cases h
  | ok next =>
    rw [hstep] at h
    exact ⟨next, rfl, h⟩

/-- An input that is accepted has a first part that is accepted. -/
theorem exists_of_feed_append {m : Machine ι σ ε ο} {s t : σ} {xs ys : List ι}
    (h : m.feed s (xs ++ ys) = .ok t) :
    ∃ next, m.feed s xs = .ok next ∧ m.feed next ys = .ok t := by
  rw [feed_append] at h
  cases hfirst : m.feed s xs with
  | error e => rw [hfirst] at h; cases h
  | ok next =>
    rw [hfirst] at h
    exact ⟨next, rfl, h⟩

/-- What every symbol keeps, every accepted input keeps. -/
theorem feed_keeps {m : Machine ι σ ε ο} {P : σ → Prop}
    (hP : ∀ {s t x}, m.step s x = .ok t → P s → P t) {s t : σ} {xs : List ι}
    (h : m.feed s xs = .ok t) (hs : P s) : P t := by
  induction xs generalizing s with
  | nil =>
    cases h
    exact hs
  | cons x xs ih =>
    obtain ⟨next, hstep, hrest⟩ := exists_of_feed_cons h
    exact ih hrest (hP hstep hs)

/-- A reader that adds each of some symbols to what it has read collects all of them. What
else it keeps (`κ`) may change on the way. -/
theorem feed_collect {κ : Type} {m : Machine ι σ ε ο} (state : κ → List ι → σ) {xs : List ι}
    (h : ∀ x ∈ xs, ∀ k read, ∃ k', m.step (state k read) x = .ok (state k' (x :: read)))
    (k : κ) (read : List ι) :
    ∃ k', m.feed (state k read) xs = .ok (state k' (xs.reverse ++ read)) := by
  induction xs generalizing k read with
  | nil => exact ⟨k, rfl⟩
  | cons x xs ih =>
    obtain ⟨k₁, hfirst⟩ := h x List.mem_cons_self k read
    obtain ⟨k₂, hrest⟩ := ih (fun y hy => h y (List.mem_cons_of_mem x hy)) k₁ (x :: read)
    refine ⟨k₂, ?_⟩
    rw [feed_cons_of_ok hfirst, hrest, List.reverse_cons, List.append_assoc]
    rfl

theorem run_eq_bind (m : Machine ι σ ε ο) (s : σ) (xs : List ι) :
    m.run s xs = (m.feed s xs).bind m.finish := by
  rw [run]
  cases m.feed s xs <;> rfl

theorem run_cons (m : Machine ι σ ε ο) (s : σ) (x : ι) (xs : List ι) :
    m.run s (x :: xs) = (m.step s x).bind (m.run · xs) := by
  rw [run_eq_bind, feed_cons]
  cases m.step s x with
  | error e => rfl
  | ok next => exact (run_eq_bind m next xs).symm

/-- An input that is not refused is followed by the rest, and by its end. -/
theorem run_append_of_ok {m : Machine ι σ ε ο} {s t : σ} {xs : List ι} (h : m.feed s xs = .ok t)
    (ys : List ι) : m.run s (xs ++ ys) = m.run t ys := by
  rw [run_eq_bind, feed_append_of_ok h, run_eq_bind]

/-- An input that has a result is not refused, and the result is the verdict at its end. -/
theorem exists_of_run {m : Machine ι σ ε ο} {s : σ} {xs : List ι} {result : ο}
    (h : m.run s xs = .ok result) :
    ∃ last, m.feed s xs = .ok last ∧ m.finish last = .ok result := by
  rw [run_eq_bind] at h
  cases hfeed : m.feed s xs with
  | error e => rw [hfeed] at h; cases h
  | ok last =>
    rw [hfeed] at h
    exact ⟨last, rfl, h⟩

/-- A symbol that is refused is the end of the input, whatever follows. -/
theorem run_refused {m : Machine ι σ ε ο} {s t : σ} {e : ε} {xs : List ι} {x : ι}
    (h : m.feed s xs = .ok t) (hstep : m.step t x = .error e) (ys : List ι) :
    m.run s (xs ++ x :: ys) = .error e := by
  rw [run_eq_bind, feed_append_of_ok h, feed_cons, hstep]
  rfl

end Machine

/-! ### Two readers -/

/-- Two results coincide: both are refusals, or neither is one and what they give is related. -/
inductive Coincide {ε ε' α α' : Type} (R : α → α' → Prop) : Except ε α → Except ε' α' → Prop where
  | refused (e : ε) (e' : ε') : Coincide R (.error e) (.error e')
  | given {a : α} {a' : α'} (h : R a a') : Coincide R (.ok a) (.ok a')

namespace Coincide

variable {ε ε' ε'' α α' α'' β β' : Type} {R : α → α' → Prop} {Q : β → β' → Prop}
  {x : Except ε α} {y : Except ε' α'}

theorem mono {R' : α → α' → Prop} (h : Coincide R x y) (hR : ∀ {a a'}, R a a' → R' a a') :
    Coincide R' x y := by
  cases h with
  | refused e e' => exact .refused e e'
  | given h => exact .given (hR h)

theorem bind {f : α → Except ε β} {g : α' → Except ε' β'} (h : Coincide R x y)
    (hnext : ∀ {a a'}, R a a' → Coincide Q (f a) (g a')) : Coincide Q (x.bind f) (y.bind g) := by
  cases h with
  | refused e e' => exact .refused e e'
  | given h => exact hnext h

theorem map {f : α → β} {g : α' → β'} (h : Coincide R x y)
    (hnext : ∀ {a a'}, R a a' → Q (f a) (g a')) : Coincide Q (x.map f) (y.map g) := by
  cases h with
  | refused e e' => exact .refused e e'
  | given h => exact .given (hnext h)

theorem trans {S : α' → α'' → Prop} {z : Except ε'' α''} (h : Coincide R x y)
    (h' : Coincide S y z) : Coincide (fun a a'' => ∃ a', R a a' ∧ S a' a'') x z := by
  cases h with
  | refused e e' =>
      cases h' with
      | refused _ e'' => exact .refused e e''
  | given h =>
      cases h' with
      | given h' => exact .given ⟨_, h, h'⟩

/-- What coincides with the same result coincides. -/
theorem through {S : α'' → α' → Prop} {z : Except ε'' α''} (h : Coincide R x y)
    (h' : Coincide S z y) : Coincide (fun a a'' => ∃ a', R a a' ∧ S a'' a') x z := by
  cases h with
  | refused e e' =>
      cases h' with
      | refused e'' _ => exact .refused e e''
  | given h =>
      cases h' with
      | given h' => exact .given ⟨_, h, h'⟩

theorem exists_of_ok (h : Coincide R x y) {a : α} (hx : x = .ok a) : ∃ a', y = .ok a' ∧ R a a' := by
  cases h with
  | refused e e' => cases hx
  | given h =>
      cases hx
      exact ⟨_, rfl, h⟩

theorem exists_of_ok' (h : Coincide R x y) {a' : α'} (hy : y = .ok a') :
    ∃ a, x = .ok a ∧ R a a' := by
  cases h with
  | refused e e' => cases hy
  | given h =>
      cases hy
      exact ⟨_, rfl, h⟩

end Coincide

/-- Results that are given together, and equal then, coincide. -/
theorem coincide_eq_iff {ε ε' α : Type} {x : Except ε α} {y : Except ε' α} :
    Coincide Eq x y ↔ ∀ a, x = .ok a ↔ y = .ok a := by
  constructor
  · intro h a
    constructor
    · intro hx
      obtain ⟨a', hy, rfl⟩ := h.exists_of_ok hx
      exact hy
    · intro hy
      obtain ⟨a, hx, rfl⟩ := h.exists_of_ok' hy
      exact hx
  · intro h
    cases x with
    | ok a =>
        rw [(h a).mp rfl]
        exact .given rfl
    | error e =>
        cases y with
        | ok a => cases (h a).mpr rfl
        | error e' => exact .refused e e'

namespace Machine

variable {ι σ σ' ε ε' ο ο' : Type} {m : Machine ι σ ε ο} {m' : Machine ι σ' ε' ο'}
  {R : σ → σ' → Prop} {Q : ο → ο' → Prop} {s : σ} {s' : σ'}

theorem coincide_feed
    (hstep : ∀ {s s'} (x : ι), R s s' → Coincide R (m.step s x) (m'.step s' x)) (h : R s s')
    (xs : List ι) : Coincide R (m.feed s xs) (m'.feed s' xs) := by
  induction xs generalizing s s' with
  | nil => exact .given h
  | cons x xs ih =>
      rw [feed_cons, feed_cons]
      exact (hstep x h).bind ih

/-- Readers that no symbol tells apart have results that coincide, if those at the end do. -/
theorem coincide_run
    (hstep : ∀ {s s'} (x : ι), R s s' → Coincide R (m.step s x) (m'.step s' x))
    (hfinish : ∀ {s s'}, R s s' → Coincide Q (m.finish s) (m'.finish s')) (h : R s s')
    (xs : List ι) : Coincide Q (m.run s xs) (m'.run s' xs) := by
  rw [run_eq_bind, run_eq_bind]
  exact (coincide_feed hstep h xs).bind hfinish

end Machine

end AuditTables.Text
