-- The search for a text in a text, by position, and the insertion of a text
-- at a position: what `find` and `insert` of a C++ string do.
import Mathlib.Data.List.Basic
import Mathlib.Data.List.Infix

namespace search

variable {α β : Type*} [DecidableEq α]

/-- The first place of `pat`, when the first place of the text is `i`. -/
def findFrom (pat : List α) : List α → Nat → Option Nat
  | [], i => if pat = [] then some i else none
  | c :: t, i => if pat.isPrefixOf (c :: t) then some i else findFrom pat t (i + 1)

/-- The first place of `pat` at `pos` or behind it. -/
def find (t pat : List α) (pos : Nat) : Option Nat := findFrom pat (t.drop pos) pos

theorem findFrom_some {pat t : List α} {i j : Nat} (h : findFrom pat t i = some j) :
    i ≤ j ∧ pat <+: t.drop (j - i) ∧ ∀ k, i ≤ k → k < j → ¬ pat <+: t.drop (k - i) := by
  induction t generalizing i with
  | nil =>
    unfold findFrom at h
    split_ifs at h with hp
    cases h
    exact ⟨Nat.le_refl _, by simp [hp], fun k h1 h2 => by omega⟩
  | cons c t ih =>
    unfold findFrom at h
    split_ifs at h with hp
    · cases h
      exact ⟨Nat.le_refl _, by simpa using hp, fun k h1 h2 => by omega⟩
    · obtain ⟨hle, hpre, hno⟩ := ih h
      refine ⟨by omega, ?_, fun k h1 h2 => ?_⟩
      · rwa [show j - i = (j - (i + 1)) + 1 by omega, List.drop_succ_cons]
      · by_cases hk : k = i
        · subst hk
          simpa using hp
        · rw [show k - i = (k - (i + 1)) + 1 by omega, List.drop_succ_cons]
          exact hno k (by omega) h2

theorem findFrom_none {pat t : List α} {i : Nat} (h : findFrom pat t i = none) (k : Nat) :
    ¬ pat <+: t.drop k := by
  induction t generalizing i k with
  | nil =>
    unfold findFrom at h
    split_ifs at h with hp
    simpa using hp
  | cons c t ih =>
    unfold findFrom at h
    split_ifs at h with hp
    cases k with
    | zero => simpa using hp
    | succ k => simpa using ih h k

theorem find_some {t pat : List α} {pos i : Nat} (h : find t pat pos = some i) :
    pos ≤ i ∧ pat <+: t.drop i ∧ ∀ k, pos ≤ k → k < i → ¬ pat <+: t.drop k := by
  obtain ⟨hle, hpre, hno⟩ := findFrom_some h
  refine ⟨hle, ?_, fun k h1 h2 => ?_⟩
  · rwa [List.drop_drop, show pos + (i - pos) = i by omega] at hpre
  · have := hno k h1 h2
    rwa [List.drop_drop, show pos + (k - pos) = k by omega] at this

theorem find_none {t pat : List α} {pos k : Nat} (h : find t pat pos = none) (hk : pos ≤ k) :
    ¬ pat <+: t.drop k := by
  have := findFrom_none h (k - pos)
  rwa [List.drop_drop, show pos + (k - pos) = k by omega] at this

/-- The place that is found is the first one. -/
theorem find_eq_some_iff {t pat : List α} {pos i : Nat} :
    find t pat pos = some i ↔
      pos ≤ i ∧ pat <+: t.drop i ∧ ∀ k, pos ≤ k → k < i → ¬ pat <+: t.drop k := by
  constructor
  · exact find_some
  · rintro ⟨hle, hpre, hno⟩
    cases hf : find t pat pos with
    | none => exact absurd hpre (find_none hf hle)
    | some j =>
      obtain ⟨hle', hpre', hno'⟩ := find_some hf
      rcases Nat.lt_trichotomy i j with hlt | rfl | hlt
      · exact absurd hpre (hno' i hle hlt)
      · rfl
      · exact absurd hpre' (hno j hle' hlt)

/-- The text around a place that was found. -/
theorem find_split {t pat : List α} {pos i : Nat} (h : find t pat pos = some i) :
    t = t.take i ++ pat ++ t.drop (i + pat.length) := by
  obtain ⟨-, ⟨rest, hrest⟩, -⟩ := find_some h
  have hdrop : t.drop (i + pat.length) = rest := by
    rw [← List.drop_drop, ← hrest, List.drop_left]
  rw [hdrop, List.append_assoc, hrest, List.take_append_drop]

/-- The text around an element that was found. -/
theorem find_cut {t : List α} {x : α} {pos i : Nat} (h : find t [x] pos = some i) :
    t = t.take i ++ x :: t.drop (i + 1) ∧ (t.take i).length = i := by
  have hsplit := find_split h
  rw [List.append_assoc, List.singleton_append] at hsplit
  refine ⟨hsplit, ?_⟩
  have hlen := congrArg List.length hsplit
  simp only [List.length_append, List.length_take, List.length_drop, List.length_cons,
    List.length_nil] at hlen ⊢
  omega

/-- The text up to an element that was found. -/
theorem find_between {t : List α} {x : α} {pos i : Nat} (h : find t [x] pos = some i) :
    t.drop pos = (t.drop pos).take (i - pos) ++ x :: t.drop (i + 1) ∧
      x ∉ (t.drop pos).take (i - pos) := by
  obtain ⟨hle, ⟨rest, hrest⟩, hno⟩ := find_some h
  refine ⟨?_, fun hm => ?_⟩
  · have hdrop : (t.drop pos).drop (i - pos) = x :: t.drop (i + 1) := by
      rw [List.drop_drop, show pos + (i - pos) = i by omega, ← hrest, List.singleton_append,
        ← List.drop_drop, ← hrest]
      rfl
    rw [← hdrop, List.take_append_drop]
  · obtain ⟨k, hk, hget⟩ := List.getElem_of_mem hm
    rw [List.length_take, List.length_drop] at hk
    refine hno (pos + k) (by omega) (by omega) ?_
    rw [List.getElem_take, List.getElem_drop] at hget
    rw [List.drop_eq_getElem_cons (by omega), hget]
    exact List.prefix_append [x] _

theorem find_eq_none_iff {t pat : List α} {pos : Nat} :
    find t pat pos = none ↔ ¬ pat <:+: t.drop pos := by
  constructor
  · rintro h ⟨a, b, hab⟩
    apply find_none h (Nat.le_add_right pos a.length)
    rw [← List.drop_drop, ← hab, List.append_assoc, List.drop_left]
    exact List.prefix_append pat b
  · intro h
    cases hf : find t pat pos with
    | none => rfl
    | some i =>
      obtain ⟨hle, hpre, -⟩ := find_some hf
      have hdrop : t.drop i = (t.drop pos).drop (i - pos) := by
        rw [List.drop_drop, show pos + (i - pos) = i by omega]
      rw [hdrop] at hpre
      exact absurd (hpre.isInfix.trans (List.drop_suffix _ _).isInfix) h

/-- An element that the pattern lacks is found behind the pattern. -/
theorem find_behind {t pat : List α} {pos k b : Nat} {x : α} (hk : find t pat pos = some k)
    (hb : find t [x] k = some b) (hx : x ∉ pat) : k + pat.length ≤ b := by
  obtain ⟨-, ⟨rest, hrest⟩, -⟩ := find_some hk
  obtain ⟨hle, ⟨rest', hrest'⟩, -⟩ := find_some hb
  have hget : t[b]? = some x := by
    have := congrArg (·[0]?) hrest'
    simpa [List.getElem?_drop] using this.symm
  by_contra hlt
  have hpat : (pat ++ rest)[b - k]? = some x := by
    rw [hrest, List.getElem?_drop, show k + (b - k) = b by omega, hget]
  rw [List.getElem?_append_left (by omega)] at hpat
  exact hx (List.mem_of_getElem? hpat)

/-! ## Texts that agree up to a place -/

theorem prefix_drop_congr {t t' pat : List β} {n k : Nat} (h : t.take n = t'.take n)
    (hk : k + pat.length ≤ n) : pat <+: t.drop k ↔ pat <+: t'.drop k := by
  have htake : ∀ u : List β, (u.drop k).take pat.length =
      ((u.take n).take (k + pat.length)).drop k := by
    intro u
    rw [List.take_take, Nat.min_eq_left hk, List.take_drop]
  rw [List.prefix_iff_eq_take, List.prefix_iff_eq_take, htake t, htake t', h]

/-- What is found does not depend on what comes behind it. -/
theorem find_congr {t t' pat : List α} {pos i n : Nat} (h : t.take n = t'.take n)
    (hi : i + pat.length ≤ n) (hf : find t pat pos = some i) : find t' pat pos = some i := by
  rw [find_eq_some_iff] at hf ⊢
  obtain ⟨hle, hpre, hno⟩ := hf
  refine ⟨hle, (prefix_drop_congr h hi).mp hpre, fun k h1 h2 => ?_⟩
  rw [← prefix_drop_congr h (by omega)]
  exact hno k h1 h2

/-- An element that the pattern lacks cuts the text in two. -/
theorem infix_append_cons {pat a b : List β} {x : β} (hx : x ∉ pat) :
    pat <:+: a ++ x :: b ↔ pat <:+: a ∨ pat <:+: b := by
  constructor
  · rintro ⟨u, w, h⟩
    rw [List.append_eq_append_iff] at h
    rcases h with ⟨c, hc, hxb⟩ | ⟨c, hc, hxb⟩
    · exact Or.inl ⟨u, c, hc.symm⟩
    · cases c with
      | nil =>
        rw [List.append_nil] at hc
        exact Or.inl ⟨u, [], by rw [List.append_nil, hc]⟩
      | cons y c =>
        simp only [List.cons_append, List.cons.injEq] at hxb
        obtain ⟨rfl, rfl⟩ := hxb
        rw [List.append_eq_append_iff] at hc
        rcases hc with ⟨e, he, hpat⟩ | ⟨e, he, hpat⟩
        · exact absurd (hpat ▸ by simp) hx
        · cases e with
          | nil =>
            simp only [List.nil_append] at hpat
            exact absurd (hpat ▸ List.mem_cons_self) hx
          | cons y e =>
            simp only [List.cons_append, List.cons.injEq] at hpat
            exact Or.inr ⟨e, w, by rw [hpat.2]⟩
  · rintro (h | h)
    · exact h.trans (List.prefix_append a (x :: b)).isInfix
    · exact h.trans ((List.suffix_cons x b).isInfix.trans (List.suffix_append a (x :: b)).isInfix)

theorem findFrom_add (pat t : List α) (i k : Nat) :
    findFrom pat t (i + k) = (findFrom pat t i).map (· + k) := by
  induction t generalizing i with
  | nil =>
    unfold findFrom
    split_ifs <;> rfl
  | cons c t ih =>
    unfold findFrom
    split_ifs
    · rfl
    · rw [show i + k + 1 = i + 1 + k by omega, ih]

/-- A search from a place on is a search in the rest of the text. -/
theorem find_drop (t pat : List α) (i : Nat) :
    find t pat i = (find (t.drop i) pat 0).map (· + i) := by
  unfold find
  rw [List.drop_zero, ← findFrom_add, Nat.zero_add]

/-- What starts before an element that the pattern lacks ends before it. -/
theorem prefix_of_cut {pat a b : List β} {x : β} (hx : x ∉ pat) (h : pat <+: a ++ x :: b) :
    pat <+: a := by
  rcases Nat.lt_or_ge a.length pat.length with hlt | hge
  · obtain ⟨w, hw⟩ := h
    have hget : (pat ++ w)[a.length]? = some x := by
      rw [hw, List.getElem?_append_right (Nat.le_refl _), Nat.sub_self]
      rfl
    rw [List.getElem?_append_left hlt] at hget
    exact absurd (List.mem_of_getElem? hget) hx
  · exact List.prefix_of_prefix_length_le h (List.prefix_append a _) hge

/-- A part that lacks the first element of the pattern can be skipped. -/
theorem infix_skip {pat a : List β} {x : β} (hpat : pat.head? = some x) (hx : x ∉ a)
    (b : List β) : pat <:+: a ++ b ↔ pat <:+: b := by
  induction a with
  | nil => rfl
  | cons c a ih =>
    rw [List.mem_cons, not_or] at hx
    rw [List.cons_append, List.infix_cons_iff, ih hx.2]
    refine or_iff_right fun hpre => ?_
    obtain ⟨p, rfl⟩ := List.head?_eq_some_iff.mp hpat
    exact hx.1 (List.cons_prefix_cons.mp hpre).1

/-! ## Where a text does not start -/

/-- The pattern starts nowhere in the first part of the text. -/
def Misses (pat : List β) : List β → List β → Prop
  | [], _ => True
  | c :: a, b => ¬ pat <+: c :: (a ++ b) ∧ Misses pat a b

section misses

variable {pat a b : List β}

theorem misses_append {c : List β} :
    Misses pat (a ++ b) c ↔ Misses pat a (b ++ c) ∧ Misses pat b c := by
  induction a with
  | nil => simp [Misses]
  | cons x a ih => simp only [List.cons_append, Misses, ih, List.append_assoc, and_assoc]

theorem misses_iff : Misses pat a b ↔ ∀ k < a.length, ¬ pat <+: (a ++ b).drop k := by
  induction a with
  | nil => simp [Misses]
  | cons x a ih =>
    rw [Misses, ih]
    constructor
    · rintro ⟨h0, h⟩ k hk
      cases k with
      | zero => exact h0
      | succ k => exact h k (by simpa using hk)
    · intro h
      exact ⟨h 0 (by simp), fun k hk => h (k + 1) (by simpa using hk)⟩

/-- A part without the first element of the pattern. -/
theorem misses_of_notMem {x : β} (hpat : pat.head? = some x) (hx : x ∉ a) (b : List β) :
    Misses pat a b := by
  induction a with
  | nil => trivial
  | cons c a ih =>
    rw [List.mem_cons, not_or] at hx
    obtain ⟨p, rfl⟩ := List.head?_eq_some_iff.mp hpat
    exact ⟨fun hp => hx.1 (List.cons_prefix_cons.mp hp).1, ih hx.2⟩

namespace Misses

theorem mono {pat' : List β} (h : Misses pat a b) (hp : pat <+: pat') : Misses pat' a b := by
  rw [misses_iff] at h ⊢
  exact fun k hk hpre => h k hk (hp.trans hpre)

/-- The pattern does not reach beyond the next part. -/
theorem congr {s : List β} (h : Misses pat a (s ++ b)) (hs : pat.length ≤ s.length + 1)
    (b' : List β) : Misses pat a (s ++ b') := by
  rw [misses_iff] at h ⊢
  intro k hk hpre
  have htake : (a ++ (s ++ b')).take (a ++ s).length = (a ++ (s ++ b)).take (a ++ s).length := by
    rw [← List.append_assoc, ← List.append_assoc, List.take_left, List.take_left]
  refine h k hk ((prefix_drop_congr htake ?_).mp hpre)
  rw [List.length_append]
  omega

end Misses

end misses

/-- What is found lies behind such a part. -/
theorem Misses.find {pat a b : List α} (h : Misses pat a b) :
    find (a ++ b) pat 0 = (search.find b pat 0).map (· + a.length) := by
  rw [misses_iff] at h
  have hdrop : ∀ k, (a ++ b).drop (k + a.length) = b.drop k := fun k => by
    rw [Nat.add_comm, List.drop_length_add_append]
  cases hf : search.find b pat 0 with
  | none =>
    cases hall : search.find (a ++ b) pat 0 with
    | none => rfl
    | some i =>
      obtain ⟨-, hpre, -⟩ := find_some hall
      have hi : a.length ≤ i := Nat.le_of_not_lt fun hlt => h i hlt hpre
      rw [show i = (i - a.length) + a.length by omega, hdrop] at hpre
      exact absurd hpre (find_none hf (Nat.zero_le _))
  | some i =>
    obtain ⟨-, hpre, hno⟩ := find_some hf
    rw [Option.map_some, find_eq_some_iff, hdrop]
    refine ⟨Nat.zero_le _, hpre, fun k _ hk hp => ?_⟩
    rcases Nat.lt_or_ge k a.length with hlt | hge
    · exact h k hlt hp
    · rw [show k = (k - a.length) + a.length by omega, hdrop] at hp
      exact hno _ (Nat.zero_le _) (by omega) hp

theorem find_start (pat b : List α) : find (pat ++ b) pat 0 = some 0 :=
  find_eq_some_iff.mpr ⟨Nat.le_refl _, List.prefix_append pat b, fun k _ hk => by omega⟩

theorem Misses.found {pat a b : List α} (h : Misses pat a (pat ++ b)) :
    search.find (a ++ (pat ++ b)) pat 0 = some a.length := by
  rw [h.find, find_start, Option.map_some, Nat.zero_add]

/-- What is found in the whole text lies behind such a part. -/
theorem Misses.split {pat a b c d : List β} (h : Misses pat a b)
    (heq : a ++ b = c ++ (pat ++ d)) : ∃ t, c = a ++ t ∧ b = t ++ (pat ++ d) := by
  have hlen : a.length ≤ c.length := Nat.le_of_not_lt fun hlt => by
    refine misses_iff.mp h c.length hlt ?_
    rw [heq, List.drop_left]
    exact List.prefix_append pat d
  rw [List.append_eq_append_iff] at heq
  rcases heq with ⟨t, rfl, rfl⟩ | ⟨t, rfl, ht⟩
  · exact ⟨t, rfl, rfl⟩
  · have hnil : t = [] := by
      rw [List.length_append] at hlen
      exact List.eq_nil_of_length_eq_zero (by omega)
    subst hnil
    exact ⟨[], by simp, by simpa using ht.symm⟩

theorem misses_of_find {pat t : List α} {i : Nat} (h : find t pat 0 = some i) :
    Misses pat (t.take i) (t.drop i) := by
  obtain ⟨-, -, hno⟩ := find_some h
  rw [misses_iff, List.take_append_drop]
  intro k hk
  exact hno k (Nat.zero_le _) (Nat.lt_of_lt_of_le hk (List.length_take_le _ _))

/-- A text that starts with an element which the part before it lacks is found behind
that part. -/
theorem find_append {a pat b : List α} {x : α} (hx : x ∉ a) (hpat : pat.head? = some x) :
    find (a ++ (pat ++ b)) pat 0 = some a.length :=
  (misses_of_notMem hpat hx _).found

/-- A part without the pattern, up to an element that the pattern lacks, can be skipped. -/
theorem find_skip {pat a : List α} {x : α} (hx : x ∉ pat) (ha : ¬ pat <:+: a) (b : List α) :
    find (a ++ x :: b) pat 0 = (find b pat 0).map (· + (a.length + 1)) := by
  have hmisses : Misses pat (a ++ [x]) b := by
    rw [misses_append, misses_iff]
    refine ⟨fun k hk hp => ?_, fun hp => ?_, trivial⟩
    · rw [List.drop_append_of_le_length (by omega)] at hp
      exact ha ((prefix_of_cut hx hp).isInfix.trans (List.drop_suffix _ _).isInfix)
    · cases pat with
      | nil => exact ha (List.nil_infix)
      | cons y pat => exact hx (by rw [(List.cons_prefix_cons.mp hp).1]; exact List.mem_cons_self)
  have hfind := hmisses.find
  rwa [List.append_assoc, List.singleton_append, List.length_append] at hfind

/-! ## Insertion -/

def insertAt (t : List β) (pos : Nat) (u : List β) : List β := t.take pos ++ u ++ t.drop pos

section cut

variable {t : List β} {x : β} {i : Nat}

theorem take_behind {a b : List β} (h : a.length = i) : (a ++ x :: b).take (i + 1) = a ++ [x] := by
  subst h
  rw [List.take_append, List.take_of_length_le (by omega)]
  simp

theorem drop_behind {a b : List β} (h : a.length = i) : (a ++ x :: b).drop (i + 1) = b := by
  subst h
  simp

theorem take_cut (h : t = t.take i ++ x :: t.drop (i + 1)) (hi : (t.take i).length = i) :
    t.take (i + 1) = t.take i ++ [x] := by
  conv_lhs => rw [h]
  exact take_behind hi

theorem insertAt_cut (h : t = t.take i ++ x :: t.drop (i + 1)) (hi : (t.take i).length = i)
    (u : List β) : insertAt t (i + 1) u = t.take i ++ x :: (u ++ t.drop (i + 1)) := by
  rw [insertAt, take_cut h hi]
  simp

/-- The part of the text between two places. -/
theorem take_between {j : Nat} (h : t = t.take i ++ x :: t.drop (i + 1))
    (hi : (t.take i).length = i) (hij : i < j) :
    t.take j = t.take i ++ x :: (t.drop (i + 1)).take (j - (i + 1)) := by
  rw [← List.singleton_append, ← List.append_assoc, ← take_cut h hi]
  conv_lhs => rw [show j = (i + 1) + (j - (i + 1)) by omega]
  rw [List.take_add]

end cut

end search
