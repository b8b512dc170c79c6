-- What a JSON value gains by an edit: members under new keys, in any place of
-- an object, with the members that were there left in order. Two accounts of
-- one edit are told apart by the index at which an object changes.
import BambuFarm.JsonEdit
import BambuFarm.JsonText

namespace json

/-! ## The members an object gains -/

def keys (ms : List Member) : List Text := ms.map Prod.fst

@[simp] theorem keys_append (ms ns : List Member) : keys (ms ++ ns) = keys ms ++ keys ns := by
  simp [keys]

@[simp] theorem keys_cons (m : Member) (ms : List Member) : keys (m :: ms) = m.1 :: keys ms := rfl

@[simp] theorem keys_nil : keys [] = [] := rfl

theorem mem_keys {m : Member} {ms : List Member} (h : m ∈ ms) : m.1 ∈ keys ms :=
  List.mem_map_of_mem h

/-- `new` is `old` with the members `added` put in, in any place and order, under keys that
`old` does not have. -/
structure Gains (old new added : List Member) : Prop where
  kept : new.filter (fun m => m.1 ∉ keys added) = old
  gained : (new.filter (fun m => m.1 ∈ keys added)).Perm added

theorem filter_fresh {ms : List Member} {ks : List Text} (h : ∀ k ∈ ks, k ∉ keys ms) :
    ms.filter (fun m => m.1 ∉ ks) = ms := by
  rw [List.filter_eq_self]
  intro m hm
  simp only [decide_not, Bool.not_eq_true', decide_eq_false_iff_not]
  exact fun hk => h m.1 hk (mem_keys hm)

theorem filter_stale {ms : List Member} {ks : List Text} (h : ∀ k ∈ ks, k ∉ keys ms) :
    ms.filter (fun m => m.1 ∈ ks) = [] := by
  rw [List.filter_eq_nil_iff]
  intro m hm
  simp only [decide_eq_true_eq]
  exact fun hk => h m.1 hk (mem_keys hm)

theorem filter_own (added : List Member) :
    added.filter (fun m => m.1 ∈ keys added) = added := by
  rw [List.filter_eq_self]
  intro m hm
  simpa using mem_keys hm

namespace Gains

variable {old new added : List Member}

theorem front (h : ∀ k ∈ keys added, k ∉ keys old) : Gains old (added ++ old) added := by
  constructor
  · have hnone : added.filter (fun m => m.1 ∉ keys added) = [] := by
      rw [List.filter_eq_nil_iff]
      intro m hm
      simpa using mem_keys hm
    rw [List.filter_append, filter_fresh h, hnone, List.nil_append]
  · rw [List.filter_append, filter_stale h, filter_own, List.append_nil]

theorem fresh (h : Gains old new added) {k : Text} (hk : k ∈ keys added) : k ∉ keys old := by
  rw [← h.kept]
  intro hm
  obtain ⟨m, hm', rfl⟩ := List.mem_map.mp hm
  simpa [hk] using (List.mem_filter.mp hm').2

theorem length (h : Gains old new added) : new.length = old.length + added.length := by
  rw [← h.kept, ← h.gained.length_eq, Nat.add_comm]
  have := List.length_eq_length_filter_add (l := new) fun m => decide (m.1 ∈ keys added)
  simpa using this

theorem nothing (h : Gains old new []) : new = old := by
  simpa using h.kept

theorem perm (h : Gains old new added) : new.Perm (added ++ old) := by
  have hsplit := List.filter_append_perm (fun m : Member => decide (m.1 ∈ keys added)) new
  refine hsplit.symm.trans (h.gained.append ?_)
  rw [← h.kept]
  simp

theorem mem_new (h : Gains old new added) {m : Member} (hm : m ∈ added) : m ∈ new :=
  h.perm.mem_iff.mpr (List.mem_append_left old hm)

/-- A key that is not among the new ones occurs as often as before. -/
theorem count (h : Gains old new added) {k : Text} (hk : k ∉ keys added) :
    (keys new).count k = (keys old).count k := by
  have hcount : ∀ ms : List Member, (keys ms).count k = ms.countP (fun m => m.1 == k) := by
    intro ms
    simp only [keys, List.count, List.countP_map]
    rfl
  rw [hcount, hcount, ← h.kept, List.countP_filter]
  apply List.countP_congr
  intro m _
  simp only [beq_iff_eq, decide_not, Bool.and_eq_true, Bool.not_eq_true', decide_eq_false_iff_not]
  constructor
  · rintro rfl
    exact ⟨rfl, hk⟩
  · exact fun hm => hm.1

end Gains

/-- The second value is the first one with members put in, each under a key that its object
did not have, and no key twice. -/
inductive Grows : Value → Value → Prop
  | refl (v : Value) : Grows v v
  | gain {old new added : List Member} (h : Gains old new added) (hnodup : (keys added).Nodup) :
      Grows (.obj old) (.obj new)
  | inside (hole : Hole) {v w : Value} (h : Grows v w) : Grows (hole.fill v) (hole.fill w)
  | trans {u v w : Value} (h : Grows u v) (h' : Grows v w) : Grows u w

/-! ## The first member with a key -/

theorem lookup_eq_none {ms : List Member} {k : Text} : ms.lookup k = none ↔ k ∉ keys ms := by
  simp only [List.lookup_eq_none_iff, keys, List.mem_map, not_exists, not_and, bne_iff_ne]
  constructor
  · exact fun h m hm hk => h m hm hk.symm
  · exact fun h m hm hk => h m hm hk.symm

theorem lookup_first {before : List Member} {k : Text} (h : k ∉ keys before) (v : Value)
    (after : List Member) : (before ++ (k, v) :: after).lookup k = some v := by
  rw [List.lookup_append, lookup_eq_none.mpr h]
  simp

theorem first_of_lookup {ms : List Member} {k : Text} {v : Value} (h : ms.lookup k = some v) :
    ∃ before after, ms = before ++ (k, v) :: after ∧ k ∉ keys before := by
  obtain ⟨before, after, rfl, hfirst⟩ := List.lookup_eq_some_iff.mp h
  refine ⟨before, after, rfl, ?_⟩
  rw [← lookup_eq_none, List.lookup_eq_none_iff]
  exact hfirst

theorem lookup_of_mem {ms : List Member} (hnodup : (keys ms).Nodup) {k : Text} {v : Value}
    (h : (k, v) ∈ ms) : ms.lookup k = some v := by
  obtain ⟨before, behind, rfl⟩ := List.append_of_mem h
  refine lookup_first (fun hk => ?_) v behind
  simp only [keys, List.map_append, List.map_cons, List.nodup_append] at hnodup
  exact hnodup.2.2 k hk k List.mem_cons_self rfl

theorem filter_none {ms : List Member} {k : Text} (h : k ∉ keys ms) :
    (ms.filter fun m => m.1 = k) = [] := by
  rw [List.filter_eq_nil_iff]
  intro m hm
  have : m.1 ≠ k := fun hk => h (List.mem_map.mpr ⟨m, hm, hk⟩)
  simpa using this

theorem filter_key {ms : List Member} (hnodup : (keys ms).Nodup) {k : Text} {v : Value}
    (h : ms.lookup k = some v) : (ms.filter fun m => m.1 = k) = [(k, v)] := by
  obtain ⟨before, behind, rfl, hbefore⟩ := first_of_lookup h
  rw [keys, List.map_append, List.map_cons] at hnodup
  have hbehind : k ∉ keys behind := (List.nodup_cons.mp hnodup.of_append_right).1
  rw [List.filter_append, List.filter_cons_of_pos (by simp), filter_none hbefore,
    filter_none hbehind, List.nil_append]

theorem first_unique {a b c d : List Member} {k : Text} {x y : Value} (ha : k ∉ keys a)
    (hc : k ∉ keys c) (h : a ++ (k, x) :: b = c ++ (k, y) :: d) : a = c ∧ x = y ∧ b = d := by
  induction a generalizing c with
  | nil =>
    cases c with
    | nil =>
      cases h
      exact ⟨rfl, rfl, rfl⟩
    | cons m c =>
      simp only [List.nil_append, List.cons_append, List.cons.injEq] at h
      exact absurd (by simp [← h.1]) hc
  | cons m a ih =>
    cases c with
    | nil =>
      simp only [List.nil_append, List.cons_append, List.cons.injEq] at h
      exact absurd (by simp [h.1]) ha
    | cons m' c =>
      simp only [keys_cons, List.mem_cons, not_or] at ha hc
      simp only [List.cons_append, List.cons.injEq] at h
      obtain ⟨rfl, rfl, rfl⟩ := ih ha.2 hc.2 h.2
      exact ⟨by rw [h.1], rfl, rfl⟩

/-! ## Where an object changes -/

section replaced

variable {α : Type*} {a b c d e f : List α} {x x' y y' z z' : α}

theorem getElem?_middle (a : List α) (x : α) (b : List α) :
    (a ++ x :: b)[a.length]? = some x := by
  simp

theorem getElem?_replaced {i : Nat} (h : i ≠ a.length) (x x' : α) :
    (a ++ x :: b)[i]? = (a ++ x' :: b)[i]? := by
  rcases Nat.lt_or_gt_of_ne h with hlt | hgt
  · rw [List.getElem?_append_left hlt, List.getElem?_append_left hlt]
  · obtain ⟨n, hn⟩ := Nat.exists_eq_add_of_lt hgt
    rw [List.getElem?_append_right (by omega), List.getElem?_append_right (by omega), hn,
      show a.length + n + 1 - a.length = n + 1 by omega, List.getElem?_cons_succ,
      List.getElem?_cons_succ]

/-- A list that has changed at one place only has changed there. -/
theorem length_of_change (h : a ++ x :: b = e ++ z :: f)
    (hne : (e ++ z' :: f)[a.length]? ≠ some x) : a.length = e.length := by
  by_contra hlen
  apply hne
  rw [getElem?_replaced hlen z' z, ← h, getElem?_middle]

/-- Two accounts of one change of a list agree. -/
theorem replaced_unique (h : a ++ x :: b = e ++ z :: f) (h' : a ++ x' :: b = e ++ z' :: f)
    (hne : x ≠ x') : a = e ∧ x = z ∧ x' = z' ∧ b = f := by
  have hdiff : (e ++ z' :: f)[a.length]? ≠ some x := by
    rw [← h', getElem?_middle]
    exact fun hx => hne (Option.some.inj hx).symm
  have hlen := length_of_change h hdiff
  obtain ⟨rfl, hxz⟩ := List.append_inj h hlen
  obtain ⟨-, hxz'⟩ := List.append_inj h' hlen
  cases hxz
  cases hxz'
  exact ⟨rfl, rfl, rfl, rfl⟩

/-- Two changes in a row that come to one change are at the same place. -/
theorem replaced_twice (h : a ++ x :: b = e ++ z :: f) (hmid : a ++ x' :: b = c ++ y :: d)
    (h' : c ++ y' :: d = e ++ z' :: f) (hx : x ≠ x') (hy : y ≠ y') (hxy : x' = y → x ≠ y') :
    a = c ∧ x' = y ∧ b = d ∧ a = e ∧ x = z ∧ y' = z' ∧ b = f := by
  have hlen : a.length = c.length := by
    by_contra hlen
    have hlast : (e ++ z' :: f)[a.length]? ≠ some x := by
      rw [← h', getElem?_replaced hlen y' y, ← hmid, getElem?_middle]
      exact fun hx' => hx (Option.some.inj hx').symm
    have hfirst : (e ++ z :: f)[c.length]? ≠ some y' := by
      rw [← h, getElem?_replaced (Ne.symm hlen) x x', hmid, getElem?_middle]
      exact fun hy' => hy (Option.some.inj hy')
    exact hlen ((length_of_change h hlast).trans (length_of_change h' hfirst).symm)
  obtain ⟨rfl, hxy'⟩ := List.append_inj hmid hlen
  cases hxy'
  obtain ⟨rfl, rfl, rfl, rfl⟩ := replaced_unique h h' (hxy rfl)
  exact ⟨rfl, rfl, rfl, rfl, rfl, rfl, rfl⟩

end replaced

/-! ## Members put in around a place -/

theorem sizeOf_append {α : Type} [SizeOf α] (l l' : List α) :
    sizeOf (l ++ l') + 1 = sizeOf l + sizeOf l' := by
  induction l with
  | nil => simp [Nat.add_comm]
  | cons m l ih =>
    simp only [List.cons_append, List.cons.sizeOf_spec]
    omega

theorem sizeOf_perm {l l' : List Member} (h : l.Perm l') : sizeOf l = sizeOf l' := by
  induction h with
  | nil => rfl
  | cons m _ ih => simp only [List.cons.sizeOf_spec, ih]
  | swap m n l =>
    simp only [List.cons.sizeOf_spec]
    omega
  | trans _ _ ih ih' => exact ih.trans ih'

theorem Gains.sizeOf_eq {old new added : List Member} (h : Gains old new added) :
    sizeOf new + 1 = sizeOf added + sizeOf old := by
  rw [sizeOf_perm h.perm, sizeOf_append]

theorem sizeOf_fill (hole : Hole) {v w : Value} {n : Nat} (h : sizeOf w = sizeOf v + n) :
    sizeOf (hole.fill w) = sizeOf (hole.fill v) + n := by
  cases hole with
  | elem before after =>
    have hv := sizeOf_append before (v :: after)
    have hw := sizeOf_append before (w :: after)
    simp only [List.cons.sizeOf_spec] at hv hw
    simp only [Hole.fill, Value.arr.sizeOf_spec]
    omega
  | member before key after =>
    have hv := sizeOf_append before ((key, v) :: after)
    have hw := sizeOf_append before ((key, w) :: after)
    simp only [List.cons.sizeOf_spec, Prod.mk.sizeOf_spec] at hv hw
    simp only [Hole.fill, Value.obj.sizeOf_spec]
    omega

theorem sizeOf_plug (hs : List Hole) {v w : Value} {n : Nat} (h : sizeOf w = sizeOf v + n) :
    sizeOf (plug hs w) = sizeOf (plug hs v) + n := by
  induction hs generalizing v w with
  | nil => exact h
  | cons hole hs ih => exact ih (sizeOf_fill hole h)

/-- How much larger a value is with the members put in. -/
noncomputable def growth (added : List Member) : Nat := sizeOf added - 1

theorem sizeOf_eq_growth (added : List Member) : sizeOf added = growth added + 1 := by
  cases added with
  | nil => rfl
  | cons m added =>
    simp only [growth, List.cons.sizeOf_spec]
    omega

theorem growth_pos {added : List Member} (h : added ≠ []) : 0 < growth added := by
  obtain ⟨⟨k, v⟩, added, rfl⟩ := List.exists_cons_of_ne_nil h
  simp only [growth, List.cons.sizeOf_spec, Prod.mk.sizeOf_spec]
  omega

theorem sizeOf_put (hs : List Hole) (added ms : List Member) :
    sizeOf (plug hs (.obj (added ++ ms))) = sizeOf (plug hs (.obj ms)) + growth added := by
  apply sizeOf_plug
  have happ := sizeOf_append added ms
  have hgrowth := sizeOf_eq_growth added
  simp only [Value.obj.sizeOf_spec]
  omega

theorem put_ne (hs : List Hole) {added : List Member} (hne : added ≠ []) (ms : List Member) :
    plug hs (.obj ms) ≠ plug hs (.obj (added ++ ms)) := by
  intro h
  have hsize := sizeOf_put hs added ms
  have hpos := growth_pos hne
  rw [h] at hsize
  omega

theorem plug_concat (hs : List Hole) (hole : Hole) (v : Value) :
    plug (hs ++ [hole]) v = hole.fill (plug hs v) := by
  simp [plug]

/-- Members put in inside an object are put into the object itself, or into one of its
members. -/
theorem put_cases {hs : List Hole} {ms added ns ns' : List Member}
    (h : plug hs (.obj ms) = .obj ns) (h' : plug hs (.obj (added ++ ms)) = .obj ns') :
    (hs = [] ∧ ms = ns ∧ ns' = added ++ ns) ∨
    ∃ hs₁ before k after, hs = hs₁ ++ [.member before k after] ∧
      ns = before ++ (k, plug hs₁ (.obj ms)) :: after ∧
      ns' = before ++ (k, plug hs₁ (.obj (added ++ ms))) :: after := by
  rcases List.eq_nil_or_concat hs with rfl | ⟨hs₁, hole, rfl⟩
  · cases h
    cases h'
    exact Or.inl ⟨rfl, rfl, rfl⟩
  · rw [List.concat_eq_append] at h h' ⊢
    rw [plug_concat] at h h'
    cases hole with
    | elem before after => cases h
    | member before k after =>
      cases h
      cases h'
      exact Or.inr ⟨hs₁, before, k, after, rfl, rfl, rfl⟩

theorem put_length {hs : List Hole} {ms added ns ns' : List Member}
    (h : plug hs (.obj ms) = .obj ns) (h' : plug hs (.obj (added ++ ms)) = .obj ns') :
    ns.length ≤ ns'.length := by
  rcases put_cases h h' with ⟨-, -, rfl⟩ | ⟨hs₁, before, k, after, -, rfl, rfl⟩
  · simp
  · simp

theorem put_count {hs : List Hole} {ms added ns ns' : List Member}
    (h : plug hs (.obj ms) = .obj ns) (h' : plug hs (.obj (added ++ ms)) = .obj ns') (k : Text) :
    (keys ns).count k ≤ (keys ns').count k := by
  rcases put_cases h h' with ⟨-, -, rfl⟩ | ⟨hs₁, before, k', after, -, rfl, rfl⟩
  · simp
  · simp

/-- Members put in inside an object that has no more members than before. -/
theorem put_inside {hs : List Hole} {ms added ns ns' : List Member} (hne : added ≠ [])
    (h : plug hs (.obj ms) = .obj ns) (h' : plug hs (.obj (added ++ ms)) = .obj ns')
    (hlen : ns'.length = ns.length) :
    ∃ hs₁ before k after, hs = hs₁ ++ [.member before k after] ∧
      ns = before ++ (k, plug hs₁ (.obj ms)) :: after ∧
      ns' = before ++ (k, plug hs₁ (.obj (added ++ ms))) :: after ∧
      (k, plug hs₁ (.obj ms)) ≠ (k, plug hs₁ (.obj (added ++ ms))) := by
  rcases put_cases h h' with ⟨-, -, rfl⟩ | ⟨hs₁, before, k, after, rfl, rfl, rfl⟩
  · have := List.length_pos_of_ne_nil hne
    rw [List.length_append] at hlen
    omega
  · exact ⟨hs₁, before, k, after, rfl, rfl, rfl,
      fun he => put_ne hs₁ hne ms (Prod.mk.inj he).2⟩

theorem plug_obj {hs : List Hole} {ms ns : List Member} (h : plug hs (.obj ms) = .obj ns)
    (ms' : List Member) : ∃ ns', plug hs (.obj ms') = .obj ns' := by
  rcases List.eq_nil_or_concat hs with rfl | ⟨hs₁, hole, rfl⟩
  · exact ⟨ms', rfl⟩
  · rw [List.concat_eq_append, plug_concat] at h ⊢
    cases hole with
    | elem before after => cases h
    | member before k after => exact ⟨_, rfl⟩

/-! ## Members put into a text -/

/-- The texts of members, each with a comma behind it. -/
def commaText (ts : List (Text × Text)) : Text :=
  ts.flatMap fun m => memberText m.1 m.2 ++ [comma]

theorem commaText_append (ts us : List (Text × Text)) :
    commaText (ts ++ us) = commaText ts ++ commaText us := by
  simp [commaText]

theorem run_comma_member {k t : Text} {v : Value} (hk : k.all isPlain = true) (ht : Reads t v)
    {mode : Mode} (hm : mode = .objStart ∨ mode = .key) (ms : List Member) (k' : Text)
    (fs : List Frame) (rest : Text) :
    run ⟨.obj ms k' :: fs, mode⟩ (memberText k t ++ [comma] ++ rest) =
      run ⟨.obj (ms ++ [(k, v)]) [] :: fs, .key⟩ rest := by
  rw [List.append_assoc, List.singleton_append, run_member hk ht hm ms k' fs (Or.inl rfl)]
  simp [run, step, afterValue, isSpace]

theorem run_commaText {ts : List (Text × Text)} {vs : List Member} (h : Members ts vs)
    (hne : ts ≠ []) {mode : Mode} (hm : mode = .objStart ∨ mode = .key) (ms : List Member)
    (k' : Text) (fs : List Frame) (rest : Text) :
    run ⟨.obj ms k' :: fs, mode⟩ (commaText ts ++ rest) =
      run ⟨.obj (ms ++ vs) [] :: fs, .key⟩ rest := by
  induction h generalizing mode ms k' with
  | nil => exact absurd rfl hne
  | @cons m v ts vs hmv hts ih =>
    obtain ⟨hk, hplain, hreads⟩ := hmv
    have hv : (m.1, v.2) = v := by rw [hk]
    rw [commaText, List.flatMap_cons, List.append_assoc, run_comma_member hplain hreads hm, hv]
    cases ts with
    | nil =>
      cases hts
      rfl
    | cons m' ts =>
      have := ih (by simp) (Or.inr rfl) (ms ++ [v]) []
      rwa [List.append_assoc] at this

theorem adds_commaText {ts : List (Text × Text)} {vs : List Member} (h : Members ts vs)
    (hne : ts ≠ []) : Adds (commaText ts) vs := by
  have := run_commaText h hne (Or.inl rfl) [] [] [] []
  rwa [List.append_nil] at this

/-- The text starts with a quote and a letter. -/
def Quoted (t : Text) : Prop := ∃ c rest, t = quote :: c :: rest ∧ 0x61 ≤ c ∧ c ≤ 0x7A

theorem letter_ne {c : UInt8} (hc : 0x61 ≤ c ∧ c ≤ 0x7A) :
    isSpace c = false ∧ c ≠ comma ∧ c ≠ colon ∧ c ≠ rbrace ∧ c ≠ rbracket := by
  have h : ∀ d : UInt8, d < 0x61 ∨ 0x7A < d → c ≠ d := by
    rintro d hd rfl
    rcases hd with hd | hd
    · exact absurd hc.1 (UInt8.not_le.mpr hd)
    · exact absurd hc.2 (UInt8.not_le.mpr hd)
  refine ⟨?_, h _ (by decide), h _ (by decide), h _ (by decide), h _ (by decide)⟩
  simp only [isSpace, h 0x20 (by decide), h 0x09 (by decide), h 0x0A (by decide),
    h 0x0D (by decide), decide_false, Bool.or_self]

/-- In a string, the quote ends the string and no letter can follow. -/
theorem eval_str_quoted (fs : List Frame) (isKey : Bool) (ps : List Piece) {t : Text}
    (ht : Quoted t) (b : Text) : eval ⟨fs, .str isKey ps⟩ (t ++ b) = none := by
  obtain ⟨c, rest, rfl, hc⟩ := ht
  obtain ⟨hspace, hcomma, hcolon, hbrace, hbracket⟩ := letter_ne hc
  have hafter : ∀ v, step (complete fs v) c = none := by
    intro v
    rcases fs with _ | ⟨_ | _, fs⟩
    · simp [complete, step, hspace]
    · simp only [complete, step, afterValue, hspace, hcomma, hbracket, if_false,
        Bool.false_eq_true]
    · simp only [complete, step, afterValue, hspace, hcomma, hbrace, if_false,
        Bool.false_eq_true]
  have hend : ∀ σ, endString fs isKey (decode ps) = some σ → step σ c = none := by
    intro σ hσ
    cases isKey with
    | false =>
      cases hσ
      exact hafter _
    | true =>
      rcases fs with _ | ⟨_ | _, fs⟩
      · cases hσ
      · cases hσ
      · cases hσ
        simp only [step, hspace, hcolon, if_false, Bool.false_eq_true]
  have hquote : step ⟨fs, .str isKey ps⟩ quote = endString fs isKey (decode ps) := by simp [step]
  simp only [eval, List.cons_append, run, hquote]
  cases he : endString fs isKey (decode ps) with
  | none => rfl
  | some σ => simp [hend σ he]

/-- A brace of a JSON text opens an object or is in a string. -/
theorem run_brace {p s : Text} {v : Value} (h : parse (p ++ lbrace :: s) = some v) :
    (∃ fs, run start (p ++ [lbrace]) = some ⟨.obj [] [] :: fs, .objStart⟩) ∨
      ∃ fs isKey ps, run start (p ++ [lbrace]) = some ⟨fs, .str isKey ps⟩ := by
  rw [parse, eval_append] at h
  obtain ⟨σ, hσ, h⟩ := Option.bind_eq_some_iff.mp h
  obtain ⟨τ', hτ', -⟩ := Option.bind_eq_some_iff.mp h
  obtain ⟨τ, hτ, -⟩ := Option.bind_eq_some_iff.mp hτ'
  have hrun : run start (p ++ [lbrace]) = some τ := by
    rw [run_append, hσ, Option.bind_some, run, hτ]
    rfl
  rcases step_lbrace hτ with rfl | ⟨isKey, ps, rfl⟩
  · exact Or.inl ⟨_, hrun⟩
  · exact Or.inr ⟨_, _, _, hrun⟩

theorem parse_behind {p t : Text} {σ : State} (h : run start (p ++ [lbrace]) = some σ) :
    parse (p ++ lbrace :: t) = eval σ t := by
  rw [parse, ← List.singleton_append, ← List.append_assoc, eval_append, h, Option.bind_some]

/-- A text of members put in behind a brace: the result is a JSON text exactly when the brace
opens an object that is not empty and the text without the members is one, and this object has
the members then. -/
theorem parse_put {p s₀ s t : Text} {v₀ v' : Value} {added : List Member}
    (h : parse (p ++ lbrace :: s₀) = some v₀) (ht : Adds t added) (hquoted : Quoted t) :
    parse (p ++ lbrace :: (t ++ s)) = some v' ↔
      KeyNext s ∧ ∃ hs ms,
        run start (p ++ [lbrace]) = some ⟨.obj [] [] :: hs.map Hole.frame, .objStart⟩ ∧
        parse (p ++ lbrace :: s) = some (plug hs (.obj ms)) ∧
        v' = plug hs (.obj (added ++ ms)) := by
  rcases run_brace h with ⟨fs, hrun⟩ | ⟨fs, isKey, ps, hrun⟩
  · rw [parse_behind hrun, eval_adds ht, parse_behind hrun, hrun]
    constructor
    · rintro ⟨hnext, hs, ms, rfl, hb, rfl⟩
      exact ⟨hnext, hs, ms, rfl, hb, rfl⟩
    · rintro ⟨hnext, hs, ms, hfs, hb, rfl⟩
      cases hfs
      exact ⟨hnext, hs, ms, rfl, hb, rfl⟩
  · rw [parse_behind hrun, eval_str_quoted fs isKey ps hquoted, hrun]
    constructor
    · intro hnone
      cases hnone
    · rintro ⟨-, hs, ms, hstate, -⟩
      cases hstate

/-- A text that cannot be read behind a brace makes the whole text unreadable. -/
theorem parse_put_unreadable {p s₀ s t : Text} {v₀ : Value}
    (h : parse (p ++ lbrace :: s₀) = some v₀) (hquoted : Quoted t)
    (ht : ∀ fs b, run ⟨.obj [] [] :: fs, .objStart⟩ (t ++ b) = none) :
    parse (p ++ lbrace :: (t ++ s)) = none := by
  rcases run_brace h with ⟨fs, hrun⟩ | ⟨fs, isKey, ps, hrun⟩
  · rw [parse_behind hrun, eval, ht]
    rfl
  · rw [parse_behind hrun, eval_str_quoted fs isKey ps hquoted]

/-- The object that a brace opens, and the value around it. -/
theorem parse_brace {p s : Text} {v : Value} {fs : List Frame}
    (h : parse (p ++ lbrace :: s) = some v)
    (hrun : run start (p ++ [lbrace]) = some ⟨.obj [] [] :: fs, .objStart⟩) :
    ∃ hs ms, hs.map Hole.frame = fs ∧ v = plug hs (.obj ms) := by
  rw [parse_behind hrun] at h
  obtain ⟨hs, ms, hhs, hall⟩ := eval_object h
  have := hall []
  rw [h] at this
  exact ⟨hs, ms, hhs, Option.some.inj this⟩

theorem keyNext_brace (q t t' : Text) :
    KeyNext (q ++ lbrace :: t) ↔ KeyNext (q ++ lbrace :: t') := by
  induction q with
  | nil => simp [KeyNext, isSpace]
  | cons c q ih =>
    by_cases hc : isSpace c = true
    · simpa [KeyNext, hc] using ih
    · simp [KeyNext, hc]

theorem quoted_commaText {k t : Text} {ts : List (Text × Text)} {c : UInt8} {rest : Text}
    (hk : k = c :: rest) (hc : 0x61 ≤ c ∧ c ≤ 0x7A) : Quoted (commaText ((k, t) :: ts)) := by
  subst hk
  exact ⟨c, _, rfl, hc⟩

end json
