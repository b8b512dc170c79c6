-- Programs over data behind mutexes that are not reentrant. A program that
-- asks for a mutex it holds already waits for itself, and fails here with a
-- `SelfDeadlock`. `Takes` is the contract of a program that ends: the mutexes
-- it asks for, and what it does to the data.
import Mathlib.Data.List.Basic

namespace locks

/-- The data behind the mutexes, and the mutexes that the running program holds. -/
structure Locked (ι σ : Type) where
  held : List ι
  data : σ

/-- The program asked for a mutex that it holds. -/
structure SelfDeadlock (ι : Type) where
  mutex : ι
  deriving DecidableEq

abbrev LockM (ι σ : Type) := EStateM (SelfDeadlock ι) (Locked ι σ)

variable {ι σ α β : Type}

/-- A step on the data, under the mutexes that the program holds there. -/
def onData (f : σ → α × σ) : LockM ι σ α := fun s => .ok (f s.data).1 ⟨s.held, (f s.data).2⟩

/-- The program asks for mutexes of `ms` only, ends with none of them locked, and does
to the data what `f` says. -/
def Takes (ms : List ι) (x : LockM ι σ α) (f : σ → α × σ) : Prop :=
  ∀ s : Locked ι σ, (∀ m ∈ ms, m ∉ s.held) → x.run s = .ok (f s.data).1 ⟨s.held, (f s.data).2⟩

theorem Takes.pure (a : α) : Takes [] (pure a : LockM ι σ α) (fun c => (a, c)) :=
  fun _ _ => rfl

theorem Takes.onData (f : σ → α × σ) : Takes [] (onData f : LockM ι σ α) f :=
  fun _ _ => rfl

theorem Takes.weaken {ms ms' : List ι} {x : LockM ι σ α} {f : σ → α × σ}
    (h : Takes ms x f) (hsub : ms ⊆ ms') : Takes ms' x f :=
  fun s hs => h s (fun m hm => hs m (hsub hm))

theorem Takes.bind {ms : List ι} {x : LockM ι σ α} {f : σ → α × σ}
    {y : α → LockM ι σ β} {g : α → σ → β × σ}
    (hx : Takes ms x f) (hy : ∀ a, Takes ms (y a) (g a)) :
    Takes ms (x >>= y) (fun c => g (f c).1 (f c).2) := by
  intro s hs
  rw [EStateM.run_bind, hx s hs]
  exact hy _ _ hs

theorem Takes.congr {ms : List ι} {x : LockM ι σ α} {f g : σ → α × σ} (h : Takes ms x f)
    (hfg : ∀ c, f c = g c) : Takes ms x g := by
  rwa [funext hfg] at h

/-- From a start with no mutex held, the program ends with no mutex held. -/
theorem Takes.run_free {ms : List ι} {x : LockM ι σ α} {f : σ → α × σ} (h : Takes ms x f)
    (c : σ) : x.run ⟨[], c⟩ = .ok (f c).1 ⟨[], (f c).2⟩ :=
  h ⟨[], c⟩ (by simp)

theorem Takes.run_bind {ms : List ι} {x : LockM ι σ α} {f : σ → α × σ} {y : α → LockM ι σ β}
    {s : Locked ι σ} (hx : Takes ms x f) (hs : ∀ m ∈ ms, m ∉ s.held) :
    (x >>= y).run s = (y (f s.data).1).run ⟨s.held, (f s.data).2⟩ := by
  rw [EStateM.run_bind, hx s hs]

section mutexes

variable [DecidableEq ι]

def lock (m : ι) : LockM ι σ PUnit := fun s =>
  if m ∈ s.held then .error ⟨m⟩ s else .ok ⟨⟩ ⟨m :: s.held, s.data⟩

def unlock (m : ι) : LockM ι σ PUnit := fun s => .ok ⟨⟩ ⟨s.held.erase m, s.data⟩

/-- The guard of `m` lives through the body. -/
def guarded (m : ι) (body : LockM ι σ α) : LockM ι σ α := do
  lock m
  let a ← body
  unlock m
  return a

/-- A statement whose guard is a temporary: `m` is locked for one step. -/
def locked (m : ι) (f : σ → α × σ) : LockM ι σ α := guarded m (onData f)

theorem run_lock_free {m : ι} {s : Locked ι σ} (h : m ∉ s.held) :
    (lock m : LockM ι σ PUnit).run s = .ok ⟨⟩ ⟨m :: s.held, s.data⟩ :=
  if_neg h

theorem run_guarded_ok {m : ι} {s : Locked ι σ} {x : LockM ι σ α} {a : α} {c : σ}
    (hfree : m ∉ s.held) (hx : x.run ⟨m :: s.held, s.data⟩ = .ok a ⟨m :: s.held, c⟩) :
    (guarded m x).run s = .ok a ⟨s.held, c⟩ := by
  have hunlock : (unlock m : LockM ι σ PUnit).run ⟨m :: s.held, c⟩ = .ok ⟨⟩ ⟨s.held, c⟩ := by
    simp [unlock, EStateM.run]
  unfold guarded
  rw [EStateM.run_bind, run_lock_free hfree]
  simp only [EStateM.run_bind, hx, hunlock, EStateM.run_pure]

theorem Takes.guarded {m : ι} {ms : List ι} {x : LockM ι σ α} {f : σ → α × σ}
    (hx : Takes ms x f) (hm : m ∉ ms) : Takes (m :: ms) (guarded m x) f := by
  intro s hs
  apply run_guarded_ok (hs m List.mem_cons_self)
  apply hx
  intro m' hm' hheld
  rcases List.mem_cons.mp hheld with rfl | hheld
  · exact hm hm'
  · exact hs m' (List.mem_cons_of_mem _ hm') hheld

theorem Takes.locked (m : ι) (f : σ → α × σ) : Takes [m] (locked m f) f :=
  (Takes.onData f).guarded (by simp)

/-! ## Programs that wait for themselves -/

theorem run_guarded_held {m : ι} {s : Locked ι σ} (x : LockM ι σ α) (h : m ∈ s.held) :
    (guarded m x).run s = .error ⟨m⟩ s := by
  have hlock : (lock m : LockM ι σ PUnit).run s = .error ⟨m⟩ s := if_pos h
  unfold guarded
  rw [EStateM.run_bind, hlock]

/-- The body of a guard fails under the guard, and the whole statement with it. -/
theorem run_guarded_error {m : ι} {s s' : Locked ι σ} {x : LockM ι σ α} {e : SelfDeadlock ι}
    (hfree : m ∉ s.held) (hx : x.run ⟨m :: s.held, s.data⟩ = .error e s') :
    (guarded m x).run s = .error e s' := by
  unfold guarded
  rw [EStateM.run_bind, run_lock_free hfree]
  simp only [EStateM.run_bind, hx]

end mutexes

end locks
