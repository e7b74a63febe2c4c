import Mathlib

/-!
# Programs with state and errors

Reasoning about programs `EStateM ε σ α` that keep the state they had reached when they fail. This
is the behaviour of code that mutates through a reference and returns early with an error: the
mutations made before the failing check stay.

## Main definitions

* `Abort`: a failure is an error that callers handle or a panic that nothing handles.
* `StateError.attempt`: run a program and hand its error to the caller as a value; a panic still
  propagates.
* `StateError.ensure`, `StateError.okOr`, `StateError.propagate`: checks that fail with a given
  error.
* `StateError.Frame f x`: the program `x` leaves the part `f` of the state as it was, whether it
  succeeds or fails.
* `StateError.wp x Q E s`: from the state `s` the program `x` does not panic, ends in `Q` when it
  succeeds and in `E` when it fails.

## Main results

* `StateError.bind_eq_ok`, `StateError.bind_eq_error`: the results of a sequence.
* `StateError.Frame.bind`, `StateError.wp_bind`, `StateError.wp_attempt`: the rules for composed
  programs.
-/

namespace TeaRs

open List

/-- A failure is an error that callers handle, or a panic. -/
inductive Abort (ε : Type) where
  | error (error : ε)
  | panic (message : String)
  deriving DecidableEq

/-- Translate the error of a failure. -/
def Abort.map {ε δ : Type} (f : ε → δ) : Abort ε → Abort δ
  | .error e => .error (f e)
  | .panic message => .panic message

namespace StateError

variable {ε σ α β γ : Type}

/-- The state a result carries, in success and in failure. -/
def resultState : EStateM.Result ε σ α → σ
  | .ok _ s => s
  | .error _ s => s

@[simp] theorem resultState_ok (a : α) (s : σ) :
    resultState (.ok a s : EStateM.Result ε σ α) = s := rfl

@[simp] theorem resultState_error (e : ε) (s : σ) :
    resultState (.error e s : EStateM.Result ε σ α) = s := rfl

/-- The error of a result, if it failed. -/
def resultError? : EStateM.Result ε σ α → Option ε
  | .ok .. => none
  | .error e _ => some e

/-- The value of a result, if it succeeded. -/
def resultValue? : EStateM.Result ε σ α → Option α
  | .ok a _ => some a
  | .error .. => none

variable {a : α} {e : ε} {s t : σ} {b : β} {δ : Type} {step : δ → α → Except ε δ} {d : δ}

theorem eq_ok_of_resultValue? {x : EStateM.Result ε σ α}
    (h : resultValue? x = some a) : x = .ok a (resultState x) := by
  cases x with
  | ok => cases h; rfl
  | error => cases h

theorem eq_error_of_resultError? {x : EStateM.Result ε σ α}
    (h : resultError? x = some e) : x = .error e (resultState x) := by
  cases x with
  | ok => cases h
  | error => cases h; rfl

theorem exists_eq_ok_of_resultError? {x : EStateM.Result ε σ α} (h : resultError? x = none) :
    ∃ a, x = .ok a (resultState x) := by
  cases x with
  | ok a => exact ⟨a, rfl⟩
  | error => cases h

theorem eq_ok_of_resultError? {x : EStateM.Result ε σ Unit} (h : resultError? x = none) :
    x = .ok () (resultState x) := by
  cases x with
  | ok => rfl
  | error => cases h

/-! ### Results of the basic programs -/

@[simp] theorem pure_run (a : α) (s : σ) : (pure a : EStateM ε σ α) s = .ok a s := rfl

@[simp] theorem throw_run (e : ε) (s : σ) : (throw e : EStateM ε σ α) s = .error e s := rfl

@[simp] theorem get_run (s : σ) : (get : EStateM ε σ σ) s = .ok s s := rfl

@[simp] theorem set_run (t s : σ) : (set t : EStateM ε σ PUnit) s = .ok ⟨⟩ t := rfl

@[simp] theorem modify_run (f : σ → σ) (s : σ) :
    (modify f : EStateM ε σ PUnit) s = .ok ⟨⟩ (f s) := rfl

theorem bind_run (x : EStateM ε σ α) (f : α → EStateM ε σ β) (s : σ) : (x >>= f) s = match x s with
      | .ok a t => f a t
      | .error e t => .error e t := rfl

@[simp] theorem bind_eq_ok {x : EStateM ε σ α} {f : α → EStateM ε σ β} :
    (x >>= f) s = .ok b t ↔ ∃ a u, x s = .ok a u ∧ f a u = .ok b t := by
  rw [bind_run]
  cases x s <;> simp

theorem bind_eq_error {x : EStateM ε σ α} {f : α → EStateM ε σ β} : (x >>= f) s = .error e t ↔
      x s = .error e t ∨ ∃ a u, x s = .ok a u ∧ f a u = .error e t := by
  rw [bind_run]
  cases x s <;> simp

theorem bind_run_of_ok {x : EStateM ε σ α} {f : α → EStateM ε σ β}
    (h : x s = .ok a t) : (x >>= f) s = f a t := by
  rw [bind_run, h]

/-! ### Checks -/

/-- Fail with `e` unless a condition holds. -/
def ensure (c : Bool) (e : ε) : EStateM ε σ Unit :=
  if c then pure () else throw e

/-- `Option::ok_or`: the value of an option, or the error `e`. -/
def okOr (o : Option α) (e : ε) : EStateM ε σ α :=
  match o with
  | some a => pure a
  | none => throw e

/-- The `?` operator on a pure result. -/
def propagate (x : Except ε α) : EStateM ε σ α :=
  match x with
  | .ok a => pure a
  | .error e => throw e

@[simp] theorem ensure_eq_ok {c : Bool} {u : Unit} : ensure c e s = .ok u t ↔ c = true ∧ s = t := by
  cases c <;> simp [ensure]

@[simp] theorem okOr_eq_ok {o : Option α} : okOr o e s = .ok a t ↔ o = some a ∧ s = t := by
  cases o <;> simp [okOr]

@[simp] theorem propagate_eq_ok {x : Except ε α} : propagate x s = .ok a t ↔ x = .ok a ∧ s = t := by
  cases x <;> simp [propagate]

@[simp] theorem mapError_eq_ok {x : Except ε α} {f : ε → δ} : x.mapError f = .ok a ↔ x = .ok a := by
  cases x <;> simp [Except.mapError]

theorem except_bind_eq_ok {x : Except ε α} {f : α → Except ε β} :
    (x >>= f) = .ok b ↔ ∃ a, x = .ok a ∧ f a = .ok b := by
  cases x <;> simp [bind, Except.bind]

theorem except_bind_eq_error {x : Except ε α} {f : α → Except ε β} :
    (x >>= f) = .error e ↔ x = .error e ∨ ∃ a, x = .ok a ∧ f a = .error e := by
  cases x <;> simp [bind, Except.bind]

/-- `map_err` and the `?` operator on what a program returns. -/
def mapErr {δ : Type} (x : EStateM ε σ (Except δ α)) (f : δ → ε) : EStateM ε σ α := do
  propagate ((← x).mapError f)

theorem mapErr_eq_ok {x : EStateM ε σ (Except δ α)} {f : δ → ε} :
    mapErr x f s = .ok a t ↔ x s = .ok (.ok a) t := by
  simp [mapErr]

/-- `From` and the `?` operator: run a program of another error type. -/
def convert {δ : Type} (f : δ → ε) (x : EStateM δ σ α) : EStateM ε σ α := fun s =>
  match x s with
  | .ok a t => .ok a t
  | .error e t => .error (f e) t

@[simp] theorem convert_eq_ok {f : δ → ε} {x : EStateM δ σ α} :
    convert f x s = .ok a t ↔ x s = .ok a t := by
  rw [convert]
  cases x s <;> simp

/-- Run a program and go on with another value after some of its errors. -/
def recover (x : EStateM ε σ α) (f : ε → Option α) : EStateM ε σ α := fun s =>
  match x s with
  | .ok a t => .ok a t
  | .error e t =>
    match f e with
    | some a => .ok a t
    | none => .error e t

/-- `let _ =`: run a program and drop what it returns. -/
def ignore (x : EStateM ε σ α) : EStateM ε σ Unit := x >>= fun _ => pure ()

/-- Run a clean-up when a program fails, and fail all the same. -/
def onError (x : EStateM ε σ α) (cleanup : EStateM ε σ Unit) : EStateM ε σ α := fun s =>
  match x s with
  | .ok a t => .ok a t
  | .error e t => .error e (resultState (cleanup t))

/-! ### Loops -/

variable {items : List α}

theorem foldlM_eq_ok (value : List α → δ)
    (start : d = value []) (next : ∀ done x rest, items = done ++ x :: rest →
      step (value done) x = .ok (value (done ++ [x]))) :
    items.foldlM step d = .ok (value items) := by
  have loop (done todo : List α) (split : items = done ++ todo) :
      todo.foldlM step (value done) = .ok (value items) := by
    induction todo generalizing done with
    | nil => rw [split, append_nil]; rfl
    | cons x todo ih =>
      rw [foldlM_cons, next done x todo split]
      exact ih (done ++ [x]) (by rw [split]; simp)
  rw [start]
  exact loop [] items rfl

theorem of_foldlM_eq_ok {ρ : Type} {P : α → Prop}
    (put : δ → List ρ → δ) (row : α → ρ) (put_nil : ∀ d, put d [] = d)
    (put_append : ∀ d rows rows', put (put d rows) rows' = put d (rows ++ rows'))
    (of_step : ∀ d a d', step d a = .ok d' → P a ∧ d' = put d [row a]) {d' : δ}
    (h : items.foldlM step d = .ok d') : (∀ a ∈ items, P a) ∧ d' = put d (items.map row) := by
  induction items generalizing d with
  | nil =>
    cases h
    exact ⟨by simp, (put_nil _).symm⟩
  | cons a items ih =>
    rw [foldlM_cons] at h
    obtain ⟨next, first, h⟩ := except_bind_eq_ok.mp h
    obtain ⟨holds, rfl⟩ := of_step d a next first
    obtain ⟨rest, rfl⟩ := ih h
    exact ⟨forall_mem_cons.mpr ⟨holds, rest⟩, put_append d _ _⟩

theorem exists_of_foldlM_eq_error
    (h : items.foldlM step d = .error e) : ∃ d' a, step d' a = .error e := by
  induction items generalizing d with
  | nil => cases h
  | cons a items ih =>
    rw [foldlM_cons] at h
    cases first : step d a with
    | error error =>
      rw [first] at h
      cases h
      exact ⟨d, a, first⟩
    | ok next =>
      rw [first] at h
      exact ih h

theorem mapM_eq_filterMap {f : α → Except ε β} {g : α → Option β}
    (h : ∀ a ∈ items, ∃ b, g a = some b ∧ f a = .ok b) :
    items.mapM f = .ok (items.filterMap g) := by
  induction items with
  | nil => rfl
  | cons a items ih =>
    obtain ⟨b, hg, hf⟩ := h a mem_cons_self
    rw [mapM_cons, hf, ih fun a ha => h a (mem_cons_of_mem _ ha),
      filterMap_cons_some hg]
    rfl

theorem mapM_map_eq_ok {f : β → Except ε γ} {g : α → β} (value : α → γ)
    (h : ∀ a ∈ items, f (g a) = .ok (value a)) :
    (items.map g).mapM f = .ok (items.map value) := by
  induction items with
  | nil => rfl
  | cons a items ih =>
    rw [map_cons, mapM_cons, h a mem_cons_self,
      ih fun a ha => h a (mem_cons_of_mem _ ha)]
    rfl

/-! ### Catching errors -/

/-- Run a program and return its error as a value. The state it reached is kept; a panic is not
caught. -/
def attempt (x : EStateM (Abort ε) σ α) : EStateM (Abort ε) σ (Except ε α) := fun s =>
  match x s with
  | .ok a t => .ok (.ok a) t
  | .error (.error e) t => .ok (.error e) t
  | .error (.panic message) t => .error (.panic message) t

/-- Fail with an error that callers handle. -/
def fail (e : ε) : EStateM (Abort ε) σ α := throw (.error e)

@[simp] theorem fail_run (e : ε) (s : σ) :
    (fail e : EStateM (Abort ε) σ α) s = .error (.error e) s := rfl

/-- The `?` operator on a pure result that callers handle. -/
def check (x : Except ε α) : EStateM (Abort ε) σ α :=
  match x with
  | .ok a => pure a
  | .error e => fail e

@[simp] theorem check_ok (a : α) (s : σ) :
    (check (.ok a) : EStateM (Abort ε) σ α) s = .ok a s := rfl

@[simp] theorem check_error (e : ε) (s : σ) :
    (check (.error e) : EStateM (Abort ε) σ α) s = .error (.error e) s := rfl

theorem check_eq_ok {x : Except ε α} :
    (check x : EStateM (Abort ε) σ α) s = .ok a t ↔ x = .ok a ∧ s = t := by
  cases x <;> simp

/-! ### Frames -/

/-- The program leaves the part `f` of the state unchanged, in success and in failure. -/
def Frame (f : σ → γ) (x : EStateM ε σ α) : Prop :=
  ∀ s, f (resultState (x s)) = f s

namespace Frame

variable {f : σ → γ}

theorem pure (a : α) : Frame f (pure a : EStateM ε σ α) := fun _ => rfl

theorem throw (e : ε) : Frame f (throw e : EStateM ε σ α) := fun _ => rfl

theorem get : Frame f (get : EStateM ε σ σ) := fun _ => rfl

theorem modify {g : σ → σ} (h : ∀ s, f (g s) = f s) : Frame f (modify g : EStateM ε σ PUnit) := h

theorem bind {x : EStateM ε σ α} {k : α → EStateM ε σ β} (hx : Frame f x)
    (hk : ∀ a, Frame f (k a)) : Frame f (x >>= k) := by
  intro s
  have h := hx s
  rw [bind_run]
  cases hxs : x s with
  | ok a t =>
    rw [hxs] at h
    exact (hk a t).trans h
  | error e t =>
    rw [hxs] at h
    exact h

theorem ite {c : Prop} [Decidable c] {x y : EStateM ε σ α} (hx : Frame f x) (hy : Frame f y) :
    Frame f (if c then x else y) := by
  split
  · exact hx
  · exact hy

theorem ensure (c : Bool) (e : ε) : Frame f (ensure c e) := by
  intro s
  cases c <;> rfl

theorem okOr (o : Option α) (e : ε) : Frame f (okOr o e) := by
  intro s
  cases o <;> rfl

theorem propagate (x : Except ε α) : Frame f (propagate x) := by
  intro s
  cases x <;> rfl

theorem mapErr {δ : Type} {x : EStateM ε σ (Except δ α)} (hx : Frame f x) (g : δ → ε) :
    Frame f (mapErr x g) :=
  hx.bind fun _ => propagate _

theorem convert {δ : Type} {x : EStateM δ σ α} (hx : Frame f x) (g : δ → ε) :
    Frame f (convert g x) := by
  intro s
  have h := hx s
  rw [StateError.convert]
  cases run : x s with
  | ok a t | error e t => rwa [run] at h

theorem recover {x : EStateM ε σ α} (hx : Frame f x) (g : ε → Option α) :
    Frame f (recover x g) := by
  intro s
  have h := hx s
  rw [StateError.recover]
  cases run : x s with
  | ok a t => rwa [run] at h
  | error e t =>
    rw [run] at h
    dsimp only
    split <;> exact h

theorem of_ok {x : EStateM ε σ α} (h : Frame f x) {s t : σ} {a : α}
    (hx : x s = .ok a t) : f t = f s := by
  have := h s
  rwa [hx] at this

theorem of_error {x : EStateM ε σ α} (h : Frame f x) {s t : σ} {e : ε}
    (hx : x s = .error e t) : f t = f s := by
  have := h s
  rwa [hx] at this

end Frame

/-! ### How a program ends -/

/-- A result is in `Q` if it is a success, and in `E` if it is a failure. -/
def Ends (Q : α → σ → Prop) (E : ε → σ → Prop) : EStateM.Result ε σ α → Prop
  | .ok a t => Q a t
  | .error e t => E e t

variable {Q Q' : α → σ → Prop} {E E' : ε → σ → Prop}

namespace Ends

variable {R : β → σ → Prop} {x : EStateM ε σ α}

theorem bind {k : α → EStateM ε σ β} (first : Ends Q E (x s))
    (rest : ∀ a t, Q a t → Ends R E (k a t)) : Ends R E ((x >>= k) s) := by
  rw [bind_run]
  cases run : x s with
  | ok a t =>
    rw [run] at first
    exact rest a t first
  | error e t =>
    rw [run] at first
    exact first

theorem mono {r : EStateM.Result ε σ α} (ends : Ends Q E r)
    (hQ : ∀ a t, Q a t → Q' a t) (hE : ∀ e t, E e t → E' e t) : Ends Q' E' r := by
  cases r with
  | ok a t => exact hQ a t ends
  | error e t => exact hE e t ends

/-- A program that keeps a part of the state ends with it, and with the result that it has. -/
theorem of_frame {f : σ → γ} (frame : Frame f x) (s : σ) :
    Ends (fun a t => x s = .ok a t ∧ f t = f s) (fun _ t => f t = f s) (x s) := by
  have same := frame s
  cases run : x s with
  | ok a t =>
    rw [run] at same
    exact ⟨rfl, same⟩
  | error e t =>
    rw [run] at same
    exact same

theorem onError {cleanup : EStateM ε σ Unit}
    (ends : Ends Q E (x s)) (cleans : ∀ e t, E e t → E' e (resultState (cleanup t))) :
    Ends Q E' (onError x cleanup s) := by
  rw [StateError.onError]
  cases run : x s with
  | ok a t =>
    rw [run] at ends
    exact ends
  | error e t =>
    rw [run] at ends
    exact cleans e t ends

end Ends

/-! ### Programs that do not panic -/

/-- No run of the program ends in a panic. -/
def NoPanic (x : EStateM (Abort ε) σ α) : Prop :=
  ∀ s message t, x s ≠ .error (.panic message) t

namespace NoPanic

theorem pure (a : α) : NoPanic (pure a : EStateM (Abort ε) σ α) := by
  intro s message t
  simp

theorem fail (e : ε) : NoPanic (fail e : EStateM (Abort ε) σ α) := by
  intro s message t
  simp

theorem get : NoPanic (get : EStateM (Abort ε) σ σ) := by
  intro s message t
  simp

theorem modify (g : σ → σ) : NoPanic (modify g : EStateM (Abort ε) σ PUnit) := by
  intro s message t
  simp

theorem bind {x : EStateM (Abort ε) σ α} {k : α → EStateM (Abort ε) σ β} (hx : NoPanic x)
    (hk : ∀ a, NoPanic (k a)) : NoPanic (x >>= k) := by
  intro s message t
  rw [Ne, bind_eq_error]
  rintro (h | ⟨a, u, -, h⟩)
  · exact hx s message t h
  · exact hk a u message t h

theorem ensure (c : Bool) (e : ε) : NoPanic (ensure c (.error e) : EStateM (Abort ε) σ Unit) := by
  intro s message t
  cases c <;> simp [StateError.ensure]

theorem okOr (o : Option α) (e : ε) : NoPanic (okOr o (.error e) : EStateM (Abort ε) σ α) := by
  intro s message t
  cases o <;> simp [StateError.okOr]

theorem propagate {x : Except (Abort ε) α} (h : ∀ message, x ≠ .error (.panic message)) :
    NoPanic (propagate x : EStateM (Abort ε) σ α) := by
  intro s message t
  cases x with
  | ok a => simp [StateError.propagate]
  | error error =>
    simp only [StateError.propagate, throw_run, ne_eq, EStateM.Result.error.injEq, not_and]
    rintro rfl
    exact absurd rfl (h message)

end NoPanic

/-! ### Weakest preconditions -/

section WeakestPrecondition

/-- From the state `s` the program ends in `Q` when it succeeds and in `E` when it fails, and it
does not panic. -/
def wp (x : EStateM (Abort ε) σ α) (Q : α → σ → Prop) (E : ε → σ → Prop) (s : σ) : Prop :=
  match x s with
  | .ok a t => Q a t
  | .error (.error e) t => E e t
  | .error (.panic _) _ => False

variable {x : EStateM (Abort ε) σ α}

theorem wp_of_ok {a : α} (h : x s = .ok a t) : wp x Q E s ↔ Q a t := by
  rw [wp, h]

theorem wp_of_error {e : ε} (h : x s = .error (.error e) t) : wp x Q E s ↔ E e t := by
  rw [wp, h]

theorem wp.of_eq_ok {a : α} (h : wp x Q E s) (run : x s = .ok a t) : Q a t := (wp_of_ok run).mp h

theorem wp.mono (h : wp x Q E s) (hQ : ∀ a t, Q a t → Q' a t) (hE : ∀ e t, E e t → E' e t) :
    wp x Q' E' s := by
  rw [wp] at h ⊢
  split at h
  · exact hQ _ _ h
  · exact hE _ _ h
  · exact h

@[simp] theorem wp_pure (a : α) : wp (pure a) Q E s ↔ Q a s := Iff.rfl

@[simp] theorem wp_fail (e : ε) : wp (fail e) Q E s ↔ E e s := Iff.rfl

@[simp] theorem wp_get {Q : σ → σ → Prop} : wp get Q E s ↔ Q s s := Iff.rfl

@[simp] theorem wp_modify {Q : PUnit → σ → Prop} (f : σ → σ) : wp (modify f) Q E s ↔ Q ⟨⟩ (f s) :=
  Iff.rfl

theorem wp_check {o : Except ε α} :
    wp (check o) Q E s ↔ (∀ a, o = .ok a → Q a s) ∧ ∀ e, o = .error e → E e s := by
  cases o <;> simp [check]

@[simp] theorem wp_check_ok (a : α) : wp (check (.ok a)) Q E s ↔ Q a s := Iff.rfl

@[simp] theorem wp_check_error (e : ε) : wp (check (.error e)) Q E s ↔ E e s := Iff.rfl

@[simp] theorem wp_bind {f : α → EStateM (Abort ε) σ β} {Q : β → σ → Prop} :
    wp (x >>= f) Q E s ↔ wp x (fun a t => wp (f a) Q E t) E s := by
  simp only [wp, bind_run]
  match x s with
  | .ok a t => rfl
  | .error (.error e) t => rfl
  | .error (.panic message) t => rfl

@[simp] theorem wp_attempt {Q : Except ε α → σ → Prop} :
    wp (attempt x) Q E s ↔ wp x (fun a => Q (.ok a)) (fun e => Q (.error e)) s := by
  simp only [wp, attempt]
  match x s with
  | .ok a t => rfl
  | .error (.error e) t => rfl
  | .error (.panic message) t => rfl

end WeakestPrecondition

/-! ### Fallible maps -/

variable {f : α → Except ε β} {results : List β}

theorem forall₂_of_mapM (h : items.mapM f = .ok results) :
    List.Forall₂ (fun a b => f a = .ok b) items results := by
  induction items generalizing results with
  | nil =>
    cases h
    exact .nil
  | cons a items ih =>
    rw [mapM_cons] at h
    obtain ⟨b, first, h⟩ := except_bind_eq_ok.mp h
    obtain ⟨bs, rest, h⟩ := except_bind_eq_ok.mp h
    cases h
    exact .cons first (ih rest)

theorem exists_of_mapM_eq_error {e : ε} (h : items.mapM f = .error e) :
    ∃ a ∈ items, f a = .error e := by
  induction items with
  | nil => cases h
  | cons a items ih =>
    rw [mapM_cons] at h
    rcases except_bind_eq_error.mp h with first | ⟨b, -, h⟩
    · exact ⟨a, mem_cons_self, first⟩
    · rcases except_bind_eq_error.mp h with rest | ⟨bs, -, h⟩
      · obtain ⟨a', member, failed⟩ := ih rest
        exact ⟨a', mem_cons_of_mem _ member, failed⟩
      · cases h

theorem mem_mapM_iff {b : β}
    (h : items.mapM f = .ok results) : b ∈ results ↔ ∃ a ∈ items, f a = .ok b := by
  have images := forall₂_of_mapM h
  clear h
  induction images with
  | nil => simp
  | cons first _ ih => simp [ih, first, eq_comm]

end StateError

end TeaRs
