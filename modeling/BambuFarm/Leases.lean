-- Leases. A counter hands out numbers to holders. A number is entered in a
-- table some time after it was handed out, and is taken out of the table when
-- its holder gives it back. A number in the table that no holder carries is
-- lost: nothing takes it out again. The law here says which steps lose one.
import BambuFarm.Runs
import Mathlib.Logic.Function.Basic

open runs

namespace leases

variable {τ κ : Type*}

/-! ## The machine -/

/-- `τ` are the holders, of which one without a lease carries `0`, and `κ` are the requests
to enter a number in the table. -/
structure Leases (τ κ : Type*) where
  carried : τ → UInt64
  entered : UInt64 → Bool
  asked : κ → Option (τ × UInt64)
  next : UInt64

inductive Change (τ κ : Type*)
  | keep
  | hand_out (c : κ) (t : τ)
  | enter (c : κ) (t : τ) (i : UInt64)
  | refuse (c : κ) (t : τ) (i : UInt64)
  | drop (t : τ)
  | give_back (t : τ)

namespace Leases

def apply [DecidableEq τ] [DecidableEq κ] (l : Leases τ κ) : Change τ κ → Leases τ κ
  | .keep => l
  | .hand_out c t => { l with
      carried := Function.update l.carried t l.next
      asked := Function.update l.asked c (some (t, l.next))
      next := l.next + 1 }
  | .enter c _ i => { l with
      entered := Function.update l.entered i true
      asked := Function.update l.asked c none }
  | .refuse c _ i => { l with
      entered := Function.update l.entered i false
      asked := Function.update l.asked c none }
  | .drop t => { l with carried := Function.update l.carried t 0 }
  | .give_back t => { l with
      carried := Function.update l.carried t 0
      entered := if l.carried t ≠ 0 then Function.update l.entered (l.carried t) false
        else l.entered }

/-- What a change finds: a holder without a lease, or the request that it settles. -/
def Fits (l : Leases τ κ) : Change τ κ → Prop
  | .hand_out _ t => l.carried t = 0
  | .enter c t i => l.asked c = some (t, i)
  | .refuse c t i => l.asked c = some (t, i)
  | _ => True

/-- The counter has not run through all of its numbers. -/
def Unwrapped (l : Leases τ κ) : Change τ κ → Prop
  | .hand_out _ _ => l.next ≠ 0
  | _ => True

/-- A number is entered while its holder carries it, and only a holder whose number is not
in the table drops it. -/
def Orderly (l : Leases τ κ) : Change τ κ → Prop
  | .enter _ t i => l.carried t = i
  | .drop t => l.entered (l.carried t) = false
  | _ => True

/-- The number is in the table, and nobody carries it. -/
def Lost (l : Leases τ κ) (i : UInt64) : Prop := l.entered i = true ∧ ∀ t, l.carried t ≠ i

/-! ## The numbers are told apart -/

/-- The number was handed out. -/
def Used (l : Leases τ κ) (i : UInt64) : Prop := i ≠ 0 ∧ (l.next = 0 ∨ i < l.next)

structure Sound (l : Leases τ κ) : Prop where
  carried_used : ∀ t, l.carried t ≠ 0 → l.Used (l.carried t)
  entered_used : ∀ i, l.entered i = true → l.Used i
  asked_used : ∀ c t i, l.asked c = some (t, i) → l.Used i
  /-- Two holders carry different numbers. -/
  unshared : ∀ t u, l.carried t = l.carried u → l.carried t ≠ 0 → t = u
  /-- Two requests are for different numbers. -/
  asked_once : ∀ c d t u i, l.asked c = some (t, i) → l.asked d = some (u, i) → c = d
  asked_not_entered : ∀ c t i, l.asked c = some (t, i) → l.entered i = false
  /-- Nobody but the holder that a number was handed out to carries it. -/
  asked_for : ∀ c t u i, l.asked c = some (t, i) → l.carried u = i → u = t

variable {l : Leases τ κ}

theorem Used.ne_next {i : UInt64} (h : l.Used i) (hnext : l.next ≠ 0) : i ≠ l.next := by
  rintro rfl
  exact absurd (h.2.resolve_left hnext) (UInt64.lt_irrefl _)

theorem used_succ {i n : UInt64} (h : i = n ∨ i < n) : n + 1 = 0 ∨ i < n + 1 := by
  rw [or_iff_not_imp_left]
  intro hn
  have hle : i.toNat ≤ n.toNat := by
    rcases h with rfl | h
    · exact Nat.le_refl _
    · exact Nat.le_of_lt (UInt64.lt_iff_toNat_lt.mp h)
  have hbound : n.toNat + 1 < 2 ^ 64 := by
    by_contra hge
    have hmax : n.toNat = 2 ^ 64 - 1 := by
      have := n.toNat_lt
      omega
    apply hn
    apply UInt64.toNat_inj.mp
    simp [UInt64.toNat_add, hmax]
  rw [UInt64.lt_iff_toNat_lt, UInt64.toNat_add]
  simp only [UInt64.reduceToNat]
  rw [Nat.mod_eq_of_lt hbound]
  omega

theorem Sound.carried_ne_next (hs : l.Sound) (hnext : l.next ≠ 0) (t : τ) :
    l.carried t ≠ l.next := by
  intro h
  have hne : l.carried t ≠ 0 := h ▸ hnext
  exact (hs.carried_used t hne).ne_next hnext h

/-- A number that is taken out of the table. -/
theorem sound_take_out (hs : l.Sound) (i : UInt64) :
    { l with entered := Function.update l.entered i false }.Sound where
  carried_used := hs.carried_used
  entered_used := by
    have hold := hs.entered_used
    intro j
    simp only [Function.update_apply]
    grind [Used]
  asked_used := hs.asked_used
  unshared := hs.unshared
  asked_once := hs.asked_once
  asked_not_entered := by
    have hold := hs.asked_not_entered
    intro d u j
    simp only [Function.update_apply]
    grind
  asked_for := hs.asked_for

variable [DecidableEq τ] [DecidableEq κ]

theorem Used.hand_out {i : UInt64} (h : l.Used i) (hnext : l.next ≠ 0) (c : κ) (t : τ) :
    (l.apply (.hand_out c t)).Used i :=
  ⟨h.1, used_succ (Or.inr (h.2.resolve_left hnext))⟩

theorem used_next (hnext : l.next ≠ 0) (c : κ) (t : τ) :
    (l.apply (.hand_out c t)).Used l.next :=
  ⟨hnext, used_succ (Or.inl rfl)⟩

theorem sound_hand_out (hs : l.Sound) {c : κ} {t : τ} (hnext : l.next ≠ 0) :
    (l.apply (.hand_out c t)).Sound where
  carried_used := by
    intro u
    by_cases hu : u = t
    · subst hu
      simp only [apply, Function.update_self]
      exact fun _ => used_next hnext c u
    · simp only [apply, Function.update_of_ne hu]
      exact fun h => (hs.carried_used u h).hand_out hnext c t
  entered_used := fun i hi => (hs.entered_used i hi).hand_out hnext c t
  asked_used := by
    intro d u i
    by_cases hd : d = c
    · subst hd
      simp only [apply, Function.update_self, Option.some.injEq, Prod.mk.injEq]
      rintro ⟨-, rfl⟩
      exact used_next hnext d t
    · simp only [apply, Function.update_of_ne hd]
      exact fun h => (hs.asked_used d u i h).hand_out hnext c t
  unshared := by
    have hfresh := hs.carried_ne_next hnext
    have hold := hs.unshared
    intro u v
    simp only [apply, Function.update_apply]
    grind
  asked_once := by
    have hfresh := fun d u i h => (hs.asked_used d u i h).ne_next hnext
    have hold := hs.asked_once
    intro d e u v i
    simp only [apply, Function.update_apply]
    grind
  asked_not_entered := by
    have hfresh : l.entered l.next = false := by
      cases h : l.entered l.next with
      | false => rfl
      | true => exact absurd rfl ((hs.entered_used _ h).ne_next hnext)
    have hold := hs.asked_not_entered
    intro d u i
    simp only [apply, Function.update_apply]
    grind
  asked_for := by
    have hfresh := hs.carried_ne_next hnext
    have hfresh' := fun d u i h => (hs.asked_used d u i h).ne_next hnext
    have hold := hs.asked_for
    intro d u v i
    simp only [apply, Function.update_apply]
    grind

omit [DecidableEq τ] in
/-- An entry or a refusal settles its request. -/
theorem sound_settle (hs : l.Sound) {c : κ} {t : τ} {i : UInt64} (hc : l.asked c = some (t, i))
    (b : Bool) :
    { l with
      entered := Function.update l.entered i b
      asked := Function.update l.asked c none : Leases τ κ }.Sound where
  carried_used := hs.carried_used
  entered_used := by
    intro j
    dsimp only
    rw [Function.update_apply]
    split
    · rename_i hj
      subst hj
      exact fun _ => hs.asked_used c t j hc
    · exact hs.entered_used j
  asked_used := by
    have hold := hs.asked_used
    intro d u j
    simp only [Function.update_apply]
    grind [Used]
  unshared := hs.unshared
  asked_once := by
    have hold := hs.asked_once
    intro d e u v j
    simp only [Function.update_apply]
    grind
  asked_not_entered := by
    -- no other request is for the number that is entered here
    have honce := hs.asked_once
    have hold := hs.asked_not_entered
    intro d u j
    simp only [Function.update_apply]
    grind
  asked_for := by
    have hold := hs.asked_for
    intro d u v j
    simp only [Function.update_apply]
    grind

/-- A holder without a lease shares no number. -/
theorem sound_drop (hs : l.Sound) (t : τ) : (l.apply (.drop t)).Sound where
  carried_used := by
    have hold := hs.carried_used
    intro u
    simp only [apply, Function.update_apply]
    split
    · exact fun h => absurd rfl h
    · exact hold u
  entered_used := hs.entered_used
  asked_used := hs.asked_used
  unshared := by
    have hold := hs.unshared
    intro u v
    simp only [apply, Function.update_apply]
    grind
  asked_once := hs.asked_once
  asked_not_entered := hs.asked_not_entered
  asked_for := by
    have hold := hs.asked_for
    have hused := hs.asked_used
    intro d u v j
    simp only [apply, Function.update_apply]
    grind [Used]

theorem sound_apply (hs : l.Sound) {x : Change τ κ} (hfits : l.Fits x) (hnext : l.Unwrapped x) :
    (l.apply x).Sound := by
  cases x with
  | keep => exact hs
  | hand_out c t => exact sound_hand_out hs hnext
  | enter c t i => exact sound_settle hs hfits true
  | refuse c t i => exact sound_settle hs hfits false
  | drop t => exact sound_drop hs t
  | give_back t =>
    by_cases h : l.carried t = 0
    · simpa [apply, h] using sound_drop hs t
    · have hout := sound_drop (sound_take_out hs (l.carried t)) t
      simpa [apply, h] using hout

/-! ## The numbers that are lost -/

theorem Lost.stays {i : UInt64} (hs : l.Sound) {x : Change τ κ} (hfits : l.Fits x)
    (hnext : l.Unwrapped x) (h : l.Lost i) : (l.apply x).Lost i := by
  obtain ⟨hin, hno⟩ := h
  have hused := hs.entered_used i hin
  cases x with
  | keep => exact ⟨hin, hno⟩
  | hand_out c t =>
    refine ⟨hin, fun u => ?_⟩
    simp only [apply, Function.update_apply]
    split
    · exact (hused.ne_next hnext).symm
    · exact hno u
  | enter c t j =>
    refine ⟨?_, hno⟩
    simp only [apply, Function.update_apply]
    split
    · rfl
    · exact hin
  | refuse c t j =>
    -- the number that is refused is not in the table
    have hout := hs.asked_not_entered c t j hfits
    have hij : i ≠ j := by
      rintro rfl
      rw [hin] at hout
      cases hout
    exact ⟨by simp [apply, Function.update_of_ne hij, hin], hno⟩
  | drop t =>
    refine ⟨hin, fun u => ?_⟩
    simp only [apply, Function.update_apply]
    split
    · exact hused.1.symm
    · exact hno u
  | give_back t =>
    refine ⟨?_, fun u => ?_⟩
    · simp only [apply]
      split
      · rw [Function.update_of_ne (hno t).symm]
        exact hin
      · exact hin
    · simp only [apply, Function.update_apply]
      split
      · exact hused.1.symm
      · exact hno u

theorem loses_of_not_orderly (hs : l.Sound) {x : Change τ κ} (hfits : l.Fits x)
    (h : ¬ l.Orderly x) : ∃ i, (l.apply x).Lost i := by
  cases x with
  | enter c t i =>
    refine ⟨i, by simp [apply], fun u hu => ?_⟩
    have hut := hs.asked_for c t u i hfits hu
    subst hut
    exact h hu
  | drop t =>
    have hin : l.entered (l.carried t) = true := by
      simpa [Orderly] using h
    have hused := hs.entered_used _ hin
    refine ⟨l.carried t, hin, fun u => ?_⟩
    simp only [apply, Function.update_apply]
    split
    · exact hused.1.symm
    · rename_i hut
      exact fun hu => hut (hs.unshared u t hu (hu ▸ hused.1))
  | _ => exact absurd trivial h

theorem lost_before (hs : l.Sound) {x : Change τ κ} (hfits : l.Fits x) (ho : l.Orderly x)
    {i : UInt64} (h : (l.apply x).Lost i) : l.Lost i := by
  obtain ⟨hin, hno⟩ := h
  cases x with
  | keep => exact ⟨hin, hno⟩
  | hand_out c t =>
    refine ⟨hin, fun u hu => ?_⟩
    by_cases hut : u = t
    · subst hut
      have hne := (hs.entered_used i hin).1
      have hzero : l.carried u = 0 := hfits
      exact hne (hu.symm.trans hzero)
    · have := hno u
      simp only [apply, Function.update_of_ne hut] at this
      exact this hu
  | enter c t j =>
    have hij : i ≠ j := by
      rintro rfl
      exact hno t ho
    refine ⟨?_, hno⟩
    simpa [apply, Function.update_of_ne hij] using hin
  | refuse c t j =>
    have hij : i ≠ j := by
      rintro rfl
      simp [apply] at hin
    refine ⟨?_, hno⟩
    simpa [apply, Function.update_of_ne hij] using hin
  | drop t =>
    refine ⟨hin, fun u hu => ?_⟩
    by_cases hut : u = t
    · subst hut
      have hout : l.entered (l.carried u) = false := ho
      rw [hu] at hout
      exact absurd hin (by simp [apply, hout])
    · have := hno u
      simp only [apply, Function.update_of_ne hut] at this
      exact this hu
  | give_back t =>
    have hnot : ∀ u, u ≠ t → l.carried u ≠ i := by
      intro u hut
      have := hno u
      simpa only [apply, Function.update_of_ne hut] using this
    by_cases hzero : l.carried t = 0
    · simp only [apply, hzero, ne_eq, not_true_eq_false, if_false] at hin
      refine ⟨hin, fun u hu => ?_⟩
      by_cases hut : u = t
      · subst hut
        exact (hs.entered_used i hin).1 (hu.symm.trans hzero)
      · exact hnot u hut hu
    · have hti : i ≠ l.carried t := by
        rintro rfl
        simp [apply, hzero] at hin
      simp only [apply, ne_eq, hzero, not_false_eq_true, if_true, Function.update_of_ne hti] at hin
      refine ⟨hin, fun u hu => ?_⟩
      by_cases hut : u = t
      · subst hut
        exact hti hu.symm
      · exact hnot u hut hu

/-- A change loses no number exactly when it is orderly, and what is lost stays lost. -/
theorem none_lost_apply (hs : l.Sound) {x : Change τ κ} (hfits : l.Fits x)
    (hnext : l.Unwrapped x) :
    (∀ i, ¬ (l.apply x).Lost i) ↔ (∀ i, ¬ l.Lost i) ∧ l.Orderly x := by
  constructor
  · intro h
    refine ⟨fun i hi => h i (hi.stays hs hfits hnext), ?_⟩
    by_contra ho
    obtain ⟨i, hi⟩ := loses_of_not_orderly hs hfits ho
    exact h i hi
  · rintro ⟨h, ho⟩ i hi
    exact h i (lost_before hs hfits ho hi)

end Leases

end leases
